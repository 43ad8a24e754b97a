import Minilang.Proofs.Ir.Addresses
import Minilang.Proofs.Lowering.Typing

/-!
# Addresses in functions under construction

Every value in a function under construction is ranked as an address of storage or as anything else, and
every instruction has operands of the ranks that it needs. Ranks are kept as the function grows, since an
instruction that defines a temporary stays where it is.
-/

namespace Minilang

namespace Ir

/-- Whether the operands of an operation have the ranks that it needs: memory is reached through addresses,
and nothing else is done with them. Room is made apart from the blocks. -/
def Operation.Ranked (ranks : Value → Bool → Prop) : Operation → Prop
  | alloca _ => False
  | load _ pointer => ranks pointer true
  | store _ value pointer => ranks value false ∧ ranks pointer true
  | binary _ _ left right | compare _ _ left right => ranks left false ∧ ranks right false
  | cast _ _ _ value => ranks value false
  | call _ callee arguments => ranks callee false ∧ ∀ argument ∈ arguments, ranks argument.2 false
  | phi _ incoming => ∃ rank, ∀ value ∈ incoming.map Prod.fst, ranks value rank

/-- Whether the result of an operation has a rank. The values that meet in a `phi` have it too. -/
def Operation.GivesRank (ranks : Value → Bool → Prop) (rank : Bool) : Operation → Prop
  | alloca _ => rank = true
  | phi _ incoming => incoming ≠ [] ∧ ∀ value ∈ incoming.map Prod.fst, ranks value rank
  | _ => rank = false

/-- Whether a terminator needs nothing but values that are no addresses. -/
def Terminator.Ranked (ranks : Value → Bool → Prop) (terminator : Terminator) : Prop :=
  ∀ value ∈ terminator.operands, ranks value false

section Laws

variable {ranks weaker : Value → Bool → Prop} (imp : ∀ value rank, ranks value rank → weaker value rank)

include imp

theorem Operation.Ranked.mono {operation : Operation} (ranked : operation.Ranked ranks) :
    operation.Ranked weaker := by
  cases operation with
  | alloca => exact ranked
  | load | cast => exact imp _ _ ranked
  | store | binary | compare => exact ⟨imp _ _ ranked.1, imp _ _ ranked.2⟩
  | call => exact ⟨imp _ _ ranked.1, fun argument member => imp _ _ (ranked.2 argument member)⟩
  | phi =>
      obtain ⟨rank, ranked⟩ := ranked
      exact ⟨rank, fun value member => imp _ _ (ranked value member)⟩

theorem Terminator.Ranked.mono {terminator : Terminator} (ranked : terminator.Ranked ranks) :
    terminator.Ranked weaker :=
  fun value member => imp _ _ (ranked value member)

end Laws

theorem Terminator.Ranked.condBranch {ranks : Value → Bool → Prop} {condition : Value}
    (ranked : ranks condition false) (whenTrue whenFalse : Nat) :
    (Terminator.condBranch condition whenTrue whenFalse).Ranked ranks :=
  fun _ member => List.mem_singleton.1 member ▸ ranked

theorem Terminator.Ranked.branch {ranks : Value → Bool → Prop} (target : Nat) :
    (Terminator.branch target).Ranked ranks :=
  List.forall_mem_nil _

/-- Every operand of a ranked operation has a rank. -/
theorem Operation.Ranked.operand {ranks : Value → Bool → Prop} {operation : Operation}
    (ranked : operation.Ranked ranks) : ∀ value ∈ operation.operands, ∃ rank, ranks value rank := by
  cases operation with
  | alloca => exact ranked.elim
  | load | cast => exact List.forall_mem_singleton.2 ⟨_, ranked⟩
  | store | binary | compare =>
      exact List.forall_mem_cons.2 ⟨⟨_, ranked.1⟩, List.forall_mem_singleton.2 ⟨_, ranked.2⟩⟩
  | call =>
      refine List.forall_mem_cons.2 ⟨⟨_, ranked.1⟩, List.forall_mem_map.2 ?_⟩
      exact fun argument member => ⟨_, ranked.2 argument member⟩
  | phi =>
      obtain ⟨rank, ranked⟩ := ranked
      exact fun value member => ⟨rank, ranked value member⟩

end Ir

namespace Builder

/-- The ranks of values: whether they are addresses of storage. -/
inductive Ranks (builder : Builder) : Ir.Value → Bool → Prop
  | const (constant : Ir.Constant) : Ranks builder (.const constant) false
  | arg (index : Nat) : Ranks builder (.arg index) false
  | global (name : String) : Ranks builder (.global name) true
  | function (name : String) : Ranks builder (.function name) false
  | room {index : Nat} {type : Ir.ValueType} :
      index < builder.temporaries → builder.Contains ⟨some index, .alloca type⟩ →
      Ranks builder (.temp index) true
  | phi {index : Nat} {type : Ir.ValueType} {incoming : List (Ir.Value × Nat)} {rank : Bool} :
      index < builder.temporaries → builder.Contains ⟨some index, .phi type incoming⟩ →
      incoming ≠ [] → (∀ value ∈ incoming.map Prod.fst, Ranks builder value rank) →
      Ranks builder (.temp index) rank
  | result {index : Nat} {operation : Ir.Operation} :
      index < builder.temporaries → builder.Contains ⟨some index, operation⟩ →
      operation.isPhi = false → (∀ type, operation ≠ .alloca type) → Ranks builder (.temp index) false

variable {builder before after : Builder} {value : Ir.Value} {rank : Bool}

namespace Ranks

theorem value_below (ranks : builder.Ranks value rank) : value.Below builder.temporaries := by
  cases ranks with
  | const | arg | global | function => trivial
  | room bound | phi bound | result bound => exact bound

theorem mono (ranks : before.Ranks value rank) (includes : before.Includes after) :
    after.Ranks value rank := by
  induction ranks with
  | const constant => exact .const constant
  | arg index => exact .arg index
  | global name => exact .global name
  | function name => exact .function name
  | room bound contains =>
      exact .room (bound.trans_le includes.temporaries_le) (contains.mono includes)
  | phi bound contains nonempty _ induction =>
      exact .phi (bound.trans_le includes.temporaries_le) (contains.mono includes) nonempty induction
  | result bound contains notPhi notRoom =>
      exact .result (bound.trans_le includes.temporaries_le) (contains.mono includes) notPhi notRoom

theorem addBlock (ranks : builder.Ranks value rank) (role : BlockRole) :
    (builder.addBlock role).Ranks value rank :=
  ranks.mono (.addBlock builder role)

end Ranks

/-- Whether all that has been built has operands of the ranks it needs. -/
structure Ranked (builder : Builder) : Prop where
  /-- The function is in order. -/
  valid : builder.Valid
  /-- Instructions have operands of the ranks they need. -/
  instruction : ∀ (index : Nat) (block : OpenBlock), builder.blocks[index]? = some block →
    ∀ instruction ∈ block.instructions.toList, instruction.operation.Ranked builder.Ranks
  /-- So have terminators. -/
  terminator : ∀ (index : Nat) (block : OpenBlock), builder.blocks[index]? = some block →
    ∀ terminator, block.terminator = some terminator → terminator.Ranked builder.Ranks

/-- The address of new room is an address. -/
theorem addAlloca_ranks (builder : Builder) (type : Ir.ValueType) :
    (builder.addAlloca type).Ranks (.temp builder.temporaries) true := by
  have room : (builder.addAlloca type).Contains ⟨some builder.temporaries, .alloca type⟩ :=
    .inl (by simp [Builder.addAlloca])
  exact .room (Nat.lt_succ_self _) room

namespace Ranked

/-- A step that keeps all blocks keeps them ranked. -/
theorem of_blocks_eq (ranked : before.Ranked) (includes : before.Includes after)
    (valid : after.Valid) (blocks_eq : after.blocks = before.blocks) : after.Ranked := by
  refine ⟨valid, fun index block found => ?_, fun index block found => ?_⟩
  · rw [blocks_eq] at found
    exact fun instruction member => (ranked.instruction index block found instruction member).mono
      fun _ _ ranks => ranks.mono includes
  · rw [blocks_eq] at found
    exact fun terminator closed => (ranked.terminator index block found terminator closed).mono
      fun _ _ ranks => ranks.mono includes

/-- A step that changes one block keeps all others ranked. -/
theorem of_modify (ranked : before.Ranked) (includes : before.Includes after) (valid : after.Valid)
    {index : Nat} (change : OpenBlock → OpenBlock)
    (blocks_eq : after.blocks = before.blocks.modify index change)
    (instruction_changed : ∀ block : OpenBlock, ∀ instruction ∈ (change block).instructions.toList,
      instruction ∈ block.instructions.toList ∨ instruction.operation.Ranked after.Ranks)
    (terminator_changed : ∀ (block : OpenBlock) terminator,
      (change block).terminator = some terminator →
      block.terminator = some terminator ∨ terminator.Ranked after.Ranks) : after.Ranked := by
  have ranks_mono (value : Ir.Value) (rank : Bool) (ranks : before.Ranks value rank) :
      after.Ranks value rank := ranks.mono includes
  have kept {other : Nat} {block : OpenBlock} (found : after.blocks[other]? = some block) :
      ∃ earlier, before.blocks[other]? = some earlier ∧ (block = earlier ∨ block = change earlier) := by
    rw [blocks_eq, Array.getElem?_modify] at found
    split at found
    · obtain ⟨earlier, earlier_found, rfl⟩ := Option.map_eq_some_iff.1 found
      exact ⟨earlier, earlier_found, .inr rfl⟩
    · exact ⟨block, found, .inl rfl⟩
  refine ⟨valid, fun other block found instruction member => ?_,
    fun other block found terminator closed => ?_⟩
  · obtain ⟨earlier, earlier_found, rfl | rfl⟩ := kept found
    · exact (ranked.instruction other block earlier_found instruction member).mono ranks_mono
    · obtain old | new := instruction_changed earlier instruction member
      · exact (ranked.instruction other earlier earlier_found instruction old).mono ranks_mono
      · exact new
  · obtain ⟨earlier, earlier_found, rfl | rfl⟩ := kept found
    · exact (ranked.terminator other block earlier_found terminator closed).mono ranks_mono
    · obtain old | new := terminator_changed earlier terminator closed
      · exact (ranked.terminator other earlier earlier_found terminator old).mono ranks_mono
      · exact new

theorem addBlock (ranked : builder.Ranked) (role : BlockRole) : (builder.addBlock role).Ranked := by
  have ranks_mono (value : Ir.Value) (rank : Bool) (ranks : builder.Ranks value rank) :
      (builder.addBlock role).Ranks value rank := ranks.addBlock role
  refine ⟨ranked.valid.addBlock role, fun index block found => ?_, fun index block found => ?_⟩
  · rw [Builder.addBlock, Array.getElem?_push] at found
    split at found
    · cases found
      exact fun instruction member => by simp at member
    · exact fun instruction member =>
        (ranked.instruction index block found instruction member).mono ranks_mono
  · rw [Builder.addBlock, Array.getElem?_push] at found
    split at found
    · cases found
      intro terminator closed
      cases closed
    · exact fun terminator closed =>
        (ranked.terminator index block found terminator closed).mono ranks_mono

theorem goTo (ranked : builder.Ranked) {block : Nat} (awaits : builder.Awaits block) :
    (builder.goTo block).Ranked := by
  apply ranked.of_blocks_eq (.goTo builder block) ⟨?_, ranked.valid.localsBelow⟩ rfl
  rintro _ ⟨rfl⟩
  obtain ⟨role, earlier, found⟩ := awaits.fresh
  exact ⟨_, found, rfl⟩

theorem resume (ranked : builder.Ranked) : builder.resume.Ranked := by
  rw [Builder.resume]
  cases builder.current with
  | none => exact (ranked.addBlock .unreachable).goTo (.added ranked.valid .unreachable)
  | some block => exact ranked

theorem includes_resume (ranked : builder.Ranked) : builder.Includes builder.resume :=
  Grows.refl.resume.includes ranked.valid.wellFormed

section Instructions

variable (ranked : builder.Ranked) {operation : Ir.Operation}
  (operands : operation.Ranked builder.Ranks)

include operands

/-- The operands of a ranked instruction are there. -/
theorem operand_below : ∀ value ∈ operation.operands, value.Below builder.temporaries := by
  intro value member
  obtain ⟨_, ranks⟩ := operands.operand value member
  exact ranks.value_below

include ranked

/-- A ranked instruction with a result may be added. -/
theorem emit : (builder.emit operation).Ranked := by
  have grows := Grows.refl.emitted (operand_below operands)
  have counted : builder.resume.countTemporary.WellFormed := ranked.resume.valid.wellFormed
  have includes : builder.resume.Includes (builder.emit operation) :=
    (Includes.countTemporary _).trans (.push counted builder.resume_current _)
  apply ranked.resume.of_modify includes (ranked.valid.of_grows grows) (fun open' =>
    { open' with instructions := open'.instructions.push ⟨some builder.temporaries, operation⟩ }) rfl
  · intro block instruction member
    rw [Array.toList_push, List.mem_append, List.mem_singleton] at member
    obtain old | rfl := member
    · exact .inl old
    · exact .inr (operands.mono fun _ _ ranks =>
        (ranks.mono ranked.includes_resume).mono includes)
  · exact fun block terminator closed => .inl closed

/-- A ranked instruction without a result may be added. -/
theorem perform : (builder.perform operation).Ranked := by
  have grows := Grows.refl.performed (operand_below operands)
  have includes : builder.resume.Includes (builder.perform operation) :=
    .push ranked.resume.valid.wellFormed builder.resume_current _
  apply ranked.resume.of_modify includes (ranked.valid.of_grows grows) (fun open' =>
    { open' with instructions := open'.instructions.push ⟨none, operation⟩ }) rfl
  · intro block instruction member
    rw [Array.toList_push, List.mem_append, List.mem_singleton] at member
    obtain old | rfl := member
    · exact .inl old
    · exact .inr (operands.mono fun _ _ ranks =>
        (ranks.mono ranked.includes_resume).mono includes)
  · exact fun block terminator closed => .inl closed

/-- The temporary of a new instruction has the rank of its result. -/
theorem emit_ranks (gives : operation.GivesRank builder.Ranks rank) :
    (builder.emit operation).Ranks (.temp builder.temporaries) rank := by
  have includes := (Grows.refl.emitted (operand_below operands)).includes ranked.valid.wellFormed
  obtain ⟨open', found, _⟩ := ranked.resume.valid.wellFormed _ builder.resume_current
  have pushed : (builder.emit operation).blocks[builder.currentIndex]? = some { open' with
      instructions := open'.instructions.push ⟨some builder.temporaries, operation⟩ } := by
    rw [Builder.emit, Builder.push, Array.getElem?_modify, if_pos rfl, countTemporary_blocks, found]
    rfl
  have contains : (builder.emit operation).Contains ⟨some builder.temporaries, operation⟩ :=
    .inr ⟨builder.currentIndex, _, pushed, by simp⟩
  have bound : builder.temporaries < (builder.emit operation).temporaries := by
    rw [emit_temporaries]
    exact Nat.lt_succ_self _
  cases operation with
  | alloca => exact operands.elim
  | phi type incoming =>
      exact .phi bound contains gives.1 fun value member => (gives.2 value member).mono includes
  | load | store | binary | compare | cast | call =>
      exact gives ▸ .result bound contains rfl (by simp)

end Instructions

/-- The open block may be closed by a ranked terminator. -/
theorem close (ranked : builder.Ranked) {block : Nat} (current : builder.current = some block)
    {terminator : Ir.Terminator} (operands : terminator.Ranked builder.Ranks) :
    (builder.close block terminator).Ranked := by
  have includes := Includes.close ranked.valid.wellFormed current terminator
  apply ranked.of_modify includes ⟨nofun, ranked.valid.localsBelow⟩
    (fun open' => { open' with terminator := some terminator }) rfl
  · exact fun block instruction member => .inl member
  · rintro block _ ⟨rfl⟩
    exact .inr (operands.mono fun _ _ ranks => ranks.mono includes)

theorem endWith (ranked : builder.Ranked) {terminator : Ir.Terminator}
    (operands : terminator.Ranked builder.Ranks) : (builder.endWith terminator).Ranked :=
  ranked.resume.close builder.resume_current
    (operands.mono fun _ _ ranks => ranks.mono ranked.includes_resume)

theorem branchTo (ranked : builder.Ranked) (target : Nat) : (builder.branchTo target).Ranked := by
  rw [Builder.branchTo]
  cases current : builder.current with
  | none => exact ranked
  | some block => exact ranked.close current (.branch target)

theorem addAlloca (ranked : builder.Ranked) (type : Ir.ValueType) :
    (builder.addAlloca type).Ranked := by
  have grows : builder.Grows (builder.addAlloca type) := .addAlloca type .refl
  exact ranked.of_blocks_eq (grows.includes ranked.valid.wellFormed) (ranked.valid.of_grows grows) rfl

theorem bind (ranked : builder.Ranked) {declaration : DeclId} {value : Ir.Value}
    (unbound : builder.local? declaration = none) (below : value.Below builder.temporaries) :
    (builder.bind declaration value).Ranked := by
  have grows : builder.Grows (builder.bind declaration value) := .bind .refl unbound below
  exact ranked.of_blocks_eq (grows.includes ranked.valid.wellFormed) (ranked.valid.of_grows grows) rfl

/-- The open block is left for one that has awaited being built. -/
theorem leave (ranked : builder.Ranked) (target : Nat) {next : Nat} (awaits : builder.Awaits next) :
    (builder.leave target next).Ranked :=
  (ranked.branchTo target).goTo (awaits.branchTo target)

section Branches

variable (ranked : builder.Ranked) {condition : Ir.Value} (ranks : builder.Ranks condition false)

include ranked ranks

theorem splitLogical (isOr : Bool) : (builder.splitLogical isOr condition).Ranked := by
  obtain ⟨start, next⟩ := Awaits.twoAdded ranked.resume.valid (if isOr then .orRhs else .andRhs)
    (if isOr then .orEnd else .andEnd)
  have prepared := (ranked.resume.addBlock (if isOr then .orRhs else .andRhs)).addBlock
    (if isOr then .orEnd else .andEnd)
  have kept := ((ranks.mono ranked.includes_resume).addBlock
    (if isOr then .orRhs else .andRhs)).addBlock (if isOr then .orEnd else .andEnd)
  refine (prepared.endWith ?_).goTo (start.endWith _)
  cases isOr with
  | false => exact .condBranch kept _ _
  | true => exact .condBranch kept _ _

theorem splitTwo (first second : BlockRole) : (builder.splitTwo first second condition).Ranked := by
  obtain ⟨start, next⟩ := Awaits.twoAdded ranked.valid first second
  exact (((ranked.addBlock first).addBlock second).endWith
    (.condBranch ((ranks.addBlock first).addBlock second) _ _)).goTo (start.endWith _)

theorem splitThree (first second third : BlockRole) :
    (builder.splitThree first second third condition).Ranked := by
  obtain ⟨start, next, last⟩ := Awaits.threeAdded ranked.valid first second third
  exact ((((ranked.addBlock first).addBlock second).addBlock third).endWith
    (.condBranch (((ranks.addBlock first).addBlock second).addBlock third) _ _)).goTo
    (start.endWith _)

end Branches

theorem startLoop (ranked : builder.Ranked) : builder.startLoop.Ranked := by
  obtain ⟨start, next, last⟩ := Awaits.threeAdded ranked.valid .whileCond .whileBody .whileEnd
  exact ((((ranked.addBlock .whileCond).addBlock .whileBody).addBlock .whileEnd).endWith
    (.branch _)).goTo (start.endWith _)

end Ranked

end Builder

end Minilang
