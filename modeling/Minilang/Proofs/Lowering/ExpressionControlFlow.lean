import Minilang.Proofs.Lowering.ControlFlow

/-!
# Control flow of lowered expressions

Every form of expression builds on a connected function with branches that lead to the blocks it has made
itself. Where two ways meet in a `phi`, each of them is the block in which the operand has come to its end,
which is not the one it began in if the operand has branches of its own.
-/

namespace Minilang

/-- Blocks where ways meet are made as the targets of branches. -/
theorem BlockRole.isTarget_of_isJoin {role : BlockRole} (isJoin : role.isJoin = true) :
    role.isTarget = true := by
  cases role with
  | entry | unreachable => cases isJoin
  | _ => rfl

/-- Operators on values are neither `phi` instructions nor room. -/
theorem UnaryOperator.operation_plain (operator : UnaryOperator) (operand : Ir.Value) :
    (operator.operation operand).isPhi = false ∧ (operator.operation operand).isAlloca = false := by
  cases operator <;> exact ⟨rfl, rfl⟩

theorem BinaryOperator.operation?_plain {operator : BinaryOperator} {type : Ir.ValueType}
    {left right : Ir.Value} {operation : Ir.Operation}
    (stands : operator.operation? type left right = some operation) :
    operation.isPhi = false ∧ operation.isAlloca = false := by
  rw [BinaryOperator.operation?] at stands
  split at stands
  · cases stands
    exact ⟨rfl, rfl⟩
  · obtain ⟨_, -, rfl⟩ := Option.map_eq_some_iff.1 stands
    exact ⟨rfl, rfl⟩

theorem Conversion.operation_plain (conversion : Conversion) (source target : Ir.ValueType)
    (operand : Ir.Value) : (conversion.operation source target operand).isPhi = false ∧
      (conversion.operation source target operand).isAlloca = false := by
  cases conversion <;> exact ⟨rfl, rfl⟩

namespace Builder

variable {older : Nat → Prop} {before builder : Builder}

theorem leads_resume {source target : Nat} :
    builder.resume.Leads source target ↔ builder.Leads source target := by
  rw [Builder.resume]
  cases builder.current with
  | none => exact leads_addBlock
  | some index => exact Iff.rfl

theorem currentIndex_lt (connected : builder.Connected) :
    builder.currentIndex < builder.resume.blocks.size := by
  rw [currentIndex, Builder.resume]
  cases current : builder.current with
  | none =>
      rw [Option.getD_none, goTo_blocks, addBlock_size]
      exact Nat.lt_succ_self _
  | some index =>
      obtain ⟨block, found, -⟩ := connected.wellFormed index current
      exact (Array.getElem?_eq_some_iff.1 found).1

namespace Admits

variable {target : Nat}

theorem addBlock (admits : builder.Admits target) (role : BlockRole) :
    (builder.addBlock role).Admits target := by
  obtain ⟨block, found, admitted⟩ := admits
  refine ⟨block, ?_, admitted⟩
  rw [blocks_addBlock_of_lt (Array.getElem?_eq_some_iff.1 found).1]
  exact found

theorem resume (admits : builder.Admits target) : builder.resume.Admits target := by
  rw [Builder.resume]
  cases builder.current with
  | none => exact admits.addBlock .unreachable
  | some index => exact admits

/-- A block in which no ways meet never holds a `phi`. -/
theorem of_hasRole (connected : builder.Connected) {role : BlockRole}
    (hasRole : builder.HasRole target role) (isTarget : role.isTarget = true)
    (noJoin : role.isJoin = false) : builder.Admits target := by
  obtain ⟨block, found, rfl⟩ := hasRole
  refine ⟨block, found, isTarget, fun instruction member => ?_⟩
  by_contra isPhi
  obtain ⟨first, rest, split⟩ := List.append_of_mem member
  have isJoin := (connected.phi target block found first instruction rest split
    (Bool.eq_true_of_not_eq_false isPhi)).2.1
  rw [noJoin] at isJoin
  cases isJoin

end Admits

/-- Whether jumps may lead to certain blocks all the time: no values meet there. -/
def Stays (builder : Builder) (older : Nat → Prop) : Prop :=
  ∀ target, older target →
    ∃ role, builder.HasRole target role ∧ role.isTarget = true ∧ role.isJoin = false

theorem Stays.mono {after : Builder} (stays : builder.Stays older)
    (includes : builder.Includes after) : after.Stays older := by
  intro target isOlder
  obtain ⟨role, hasRole, isTarget, noJoin⟩ := stays target isOlder
  exact ⟨role, hasRole.of_includes includes, isTarget, noJoin⟩

theorem Stays.admits (stays : builder.Stays older) (connected : builder.Connected) {target : Nat}
    (isOlder : older target) : builder.Admits target := by
  obtain ⟨role, hasRole, isTarget, noJoin⟩ := stays target isOlder
  exact .of_hasRole connected hasRole isTarget noJoin

namespace Connects

theorem resume (connects : before.Connects older builder) (connected : before.Connected) :
    before.Connects older builder.resume := by
  have wellFormed := (connects.connected connected).wellFormed
  rw [Builder.resume]
  cases builder.current with
  | none => exact .goTo (.addBlock _ connects) connects.size_le (.added wellFormed _)
  | some index => exact connects

/-- An instruction that is neither a `phi` nor makes room may be added where building goes on. -/
theorem emitted (connects : before.Connects older builder) (connected : before.Connected)
    {operation : Ir.Operation} (noPhi : operation.isPhi = false)
    (noRoom : operation.isAlloca = false) : before.Connects older (builder.emit operation) := by
  have resumed := connects.resume connected
  refine .push (.countTemporary resumed) builder.resume_current noRoom fun isPhi => ?_
  rw [noPhi] at isPhi
  cases isPhi

theorem performed (connects : before.Connects older builder) (connected : before.Connected)
    {operation : Ir.Operation} (noPhi : operation.isPhi = false)
    (noRoom : operation.isAlloca = false) : before.Connects older (builder.perform operation) := by
  refine .push (connects.resume connected) builder.resume_current noRoom fun isPhi => ?_
  rw [noPhi] at isPhi
  cases isPhi

/-- The block that building goes on in may be closed. -/
theorem endWith (connects : before.Connects older builder) (connected : before.Connected)
    {terminator : Ir.Terminator} (targets : ∀ target ∈ terminator.successors,
      (before.blocks.size ≤ target ∨ older target) ∧ builder.Admits target) :
    before.Connects older (builder.endWith terminator) :=
  .close (connects.resume connected) builder.resume_current fun target member =>
    ⟨(targets target member).1, (targets target member).2.resume⟩

/-- The open block may lead to another one. -/
theorem branchTo (connects : before.Connects older builder) {target : Nat}
    (allowed : before.blocks.size ≤ target ∨ older target) (admits : builder.Admits target) :
    before.Connects older (builder.branchTo target) := by
  rw [Builder.branchTo]
  cases current : builder.current with
  | none => exact connects
  | some index =>
      refine .close connects current ?_
      rw [Ir.Terminator.successors, List.forall_mem_singleton]
      exact ⟨allowed, admits⟩

/-- The open block is left for one that has awaited being built. -/
theorem leave (connects : before.Connects older builder) {target next : Nat} {role : BlockRole}
    (allowed : before.blocks.size ≤ target ∨ older target) (admits : builder.Admits target)
    (reserves : builder.Reserves next role) (new : before.blocks.size ≤ next) :
    before.Connects older (builder.leave target next) :=
  .goTo (connects.branchTo allowed admits) new (reserves.branchTo target)

end Connects

/-- A block keeps its role while another one is closed. -/
theorem HasRole.endWith (connected : builder.Connected) {index : Nat} {role : BlockRole}
    (hasRole : builder.HasRole index role) (terminator : Ir.Terminator) :
    (builder.endWith terminator).HasRole index role := by
  have resumed : builder.Connects (fun _ => False) builder.resume := Connects.refl.resume connected
  have closed := Includes.close (resumed.connected connected).wellFormed builder.resume_current
    terminator
  exact (hasRole.of_includes (resumed.includes connected)).of_includes closed

theorem leads_endWith (connected : builder.Connected) {terminator : Ir.Terminator}
    {source target : Nat} : (builder.endWith terminator).Leads source target ↔
      builder.Leads source target ∨
        source = builder.currentIndex ∧ target ∈ terminator.successors := by
  have resumed : builder.Connects (fun _ => False) builder.resume := Connects.refl.resume connected
  rw [Builder.endWith, leads_close (resumed.connected connected).wellFormed builder.resume_current,
    leads_resume]

theorem leads_leave (connected : builder.Connected) {target next source other : Nat} :
    (builder.resume.leave target next).Leads source other ↔
      builder.Leads source other ∨ source = builder.currentIndex ∧ other = target := by
  have resumed : builder.Connects (fun _ => False) builder.resume := Connects.refl.resume connected
  have closed : builder.resume.branchTo target =
      builder.resume.close builder.currentIndex (.branch target) := by
    rw [Builder.branchTo, builder.resume_current]
  change (builder.resume.branchTo target).Leads source other ↔ _
  rw [closed, leads_close (resumed.connected connected).wellFormed builder.resume_current,
    leads_resume, Ir.Terminator.successors, List.mem_singleton]

/-- Two blocks prepared one after another both await being built. -/
theorem Reserves.two (connected : builder.Connected) (first second : BlockRole) :
    ((builder.addBlock first).addBlock second).Reserves builder.blocks.size first ∧
      ((builder.addBlock first).addBlock second).Reserves (builder.blocks.size + 1) second := by
  refine ⟨(Reserves.added connected.wellFormed first).addBlock second, ?_⟩
  have added := Reserves.added (connected.addBlock first).wellFormed second
  rw [addBlock_size] at added
  exact added

/-- Three blocks prepared one after another all await being built. -/
theorem Reserves.three (connected : builder.Connected) (first second third : BlockRole) :
    (((builder.addBlock first).addBlock second).addBlock third).Reserves builder.blocks.size first ∧
      (((builder.addBlock first).addBlock second).addBlock third).Reserves
        (builder.blocks.size + 1) second ∧
      (((builder.addBlock first).addBlock second).addBlock third).Reserves
        (builder.blocks.size + 2) third := by
  obtain ⟨start, next⟩ := Reserves.two connected first second
  refine ⟨start.addBlock third, next.addBlock third, ?_⟩
  have added := Reserves.added ((connected.addBlock first).addBlock second).wellFormed third
  rw [addBlock_size, addBlock_size] at added
  exact added

/-- The open block may be closed by a branch to prepared blocks, one of which building goes on in. -/
theorem Connects.fork {prepared : Builder} (connects : before.Connects older builder)
    (connected : before.Connected) (later : builder.Connects (fun _ => False) prepared)
    {terminator : Ir.Terminator} (targets : ∀ target ∈ terminator.successors,
      builder.blocks.size ≤ target ∧ ∃ role, prepared.Reserves target role ∧ role.isTarget = true)
    {start : Nat} {role : BlockRole} (start_le : builder.blocks.size ≤ start)
    (reserves : prepared.Reserves start role) :
    before.Connects older ((prepared.endWith terminator).goTo start) := by
  have extended : before.Connects older prepared :=
    connects.trans later fun _ never => never.elim
  refine .goTo (extended.endWith connected fun target member => ?_)
    (connects.size_le.trans start_le) (reserves.endWith _)
  obtain ⟨target_le, role, reserved, isTarget⟩ := targets target member
  exact ⟨.inl (connects.size_le.trans target_le), reserved.admits isTarget⟩

section Splits

variable (connects : before.Connects older builder) (connected : before.Connected)
  (condition : Ir.Value)

include connects connected

theorem Connects.splitTwo {first second : BlockRole} (firstTarget : first.isTarget = true)
    (secondTarget : second.isTarget = true) :
    before.Connects older (builder.splitTwo first second condition) ∧
      (builder.splitTwo first second condition).Reserves (builder.blocks.size + 1) second := by
  obtain ⟨start, next⟩ := Reserves.two (connects.connected connected) first second
  refine ⟨connects.fork connected (.addBlock _ (.addBlock _ .refl)) ?_ le_rfl start,
    (next.endWith _).goTo (Nat.ne_of_lt (Nat.lt_succ_self _))⟩
  rw [Ir.Terminator.successors, List.forall_mem_cons, List.forall_mem_singleton]
  exact ⟨⟨le_rfl, first, start, firstTarget⟩, Nat.le_succ _, second, next, secondTarget⟩

theorem Connects.splitThree {first second third : BlockRole} (firstTarget : first.isTarget = true)
    (secondTarget : second.isTarget = true) :
    before.Connects older (builder.splitThree first second third condition) ∧
      (builder.splitThree first second third condition).Reserves
        (builder.blocks.size + 1) second ∧
      (builder.splitThree first second third condition).Reserves (builder.blocks.size + 2) third ∧
      ∀ source, ¬ (builder.splitThree first second third condition).Leads source
        (builder.blocks.size + 2) := by
  have isConnected := connects.connected connected
  obtain ⟨start, next, last⟩ := Reserves.three isConnected first second third
  refine ⟨connects.fork connected (.addBlock _ (.addBlock _ (.addBlock _ .refl))) ?_ le_rfl start,
    (next.endWith _).goTo (Nat.ne_of_lt (Nat.lt_succ_self _)),
    (last.endWith _).goTo (Nat.ne_of_lt (Nat.lt_add_of_pos_right Nat.two_pos)), fun source => ?_⟩
  · rw [Ir.Terminator.successors, List.forall_mem_cons, List.forall_mem_singleton]
    exact ⟨⟨le_rfl, first, start, firstTarget⟩, Nat.le_succ _, second, next, secondTarget⟩
  · have nothing := @Reserves.unled_added _ ((isConnected.addBlock first).addBlock second) third source
    rw [addBlock_size, addBlock_size] at nothing
    change ¬ ((((builder.addBlock first).addBlock second).addBlock third).endWith _).Leads source
      (builder.blocks.size + 2)
    rw [leads_endWith (((isConnected.addBlock first).addBlock second).addBlock third)]
    rintro (leads | ⟨-, member⟩)
    · exact nothing leads
    · simp [Ir.Terminator.successors] at member

theorem Connects.startLoop :
    before.Connects older builder.startLoop ∧
      builder.startLoop.HasRole builder.blocks.size .whileCond ∧
      builder.startLoop.Reserves (builder.blocks.size + 1) .whileBody ∧
      builder.startLoop.Reserves (builder.blocks.size + 2) .whileEnd := by
  obtain ⟨start, next, last⟩ :=
    Reserves.three (connects.connected connected) .whileCond .whileBody .whileEnd
  have reserved := start.endWith (.branch builder.blocks.size)
  obtain ⟨earlier, found⟩ := reserved.empty
  refine ⟨connects.fork connected (.addBlock _ (.addBlock _ (.addBlock _ .refl))) ?_ le_rfl start,
    ⟨_, found, rfl⟩, (next.endWith _).goTo (Nat.ne_of_lt (Nat.lt_succ_self _)),
    (last.endWith _).goTo (Nat.ne_of_lt (Nat.lt_add_of_pos_right Nat.two_pos))⟩
  rw [Ir.Terminator.successors, List.forall_mem_singleton]
  exact ⟨le_rfl, .whileCond, start, rfl⟩

/-- The right operand of a logical operator is built in a block of its own, while the block behind the
operator awaits being built. So far only the way around the right operand leads there. -/
theorem Connects.splitLogical (isOr : Bool) :
    before.Connects older (builder.splitLogical isOr condition) ∧
      (builder.splitLogical isOr condition).Reserves (builder.resume.blocks.size + 1)
        (if isOr = true then .orEnd else .andEnd) ∧
      ∀ source, (builder.splitLogical isOr condition).Leads source (builder.resume.blocks.size + 1) ↔
        source = builder.currentIndex := by
  have resumed := connects.resume connected
  have isConnected := resumed.connected connected
  set first : BlockRole := if isOr = true then .orRhs else .andRhs with first_eq
  set second : BlockRole := if isOr = true then .orEnd else .andEnd with second_eq
  have firstTarget : first.isTarget = true := by cases isOr <;> rfl
  have secondTarget : second.isTarget = true := by cases isOr <;> rfl
  obtain ⟨start, next⟩ := Reserves.two isConnected first second
  set terminator : Ir.Terminator :=
    if isOr = true then
      .condBranch condition (builder.resume.blocks.size + 1) builder.resume.blocks.size
    else .condBranch condition builder.resume.blocks.size (builder.resume.blocks.size + 1)
    with terminator_eq
  have successors (target : Nat) : target ∈ terminator.successors ↔
      target = builder.resume.blocks.size ∨ target = builder.resume.blocks.size + 1 := by
    cases isOr <;> simp [terminator_eq, Ir.Terminator.successors, or_comm]
  refine ⟨resumed.fork connected (.addBlock _ (.addBlock _ .refl)) ?_ le_rfl start,
    (next.endWith _).goTo (Nat.ne_of_lt (Nat.lt_succ_self _)), fun source => ?_⟩
  · intro target member
    obtain rfl | rfl := (successors target).1 member
    · exact ⟨le_rfl, first, start, firstTarget⟩
    · exact ⟨Nat.le_succ _, second, next, secondTarget⟩
  · have unled : ¬ ((builder.resume.addBlock first).addBlock second).Leads source
        (builder.resume.blocks.size + 1) := by
      have nothing := @Reserves.unled_added _ (isConnected.addBlock first) second source
      rwa [addBlock_size] at nothing
    have index_eq : ((builder.resume.addBlock first).addBlock second).currentIndex =
        builder.currentIndex := currentIndex_of_current builder.resume_current
    change (((builder.resume.addBlock first).addBlock second).endWith terminator).Leads source
      (builder.resume.blocks.size + 1) ↔ _
    rw [leads_endWith ((isConnected.addBlock first).addBlock second), index_eq]
    refine ⟨fun leads => (leads.resolve_left unled).1, fun same => .inr ⟨same, ?_⟩⟩
    exact (successors _).2 (.inr rfl)

end Splits

/-- The block that building goes on in is where it was, or a new one. -/
theorem Connects.currentIndex_new (connects : before.Connects older builder) {index : Nat}
    (current : before.current = some index) :
    builder.currentIndex = index ∨ before.blocks.size ≤ builder.currentIndex := by
  rw [currentIndex]
  cases here : builder.current with
  | none => exact .inr connects.size_le
  | some other =>
      obtain same | new := connects.current_new here
      · exact .inl (Option.some.inj (same.symm.trans current))
      · exact .inr new

/-- Two ways meet in a block that has awaited them, the second of which is the one that building has come
to its end on. -/
theorem Connects.meet (connects : before.Connects older builder) (connected : before.Connected)
    {target firstBlock : Nat} {role : BlockRole} {type : Ir.ValueType} {first second : Ir.Value}
    (reserves : builder.Reserves target role) (isJoin : role.isJoin = true)
    (new : before.blocks.size ≤ target) (apart : firstBlock ≠ builder.currentIndex)
    (ways : ∀ source, builder.Leads source target ↔ source = firstBlock) :
    before.Connects older ((builder.resume.leave target target).emit
      (.phi type [(first, firstBlock), (second, builder.currentIndex)])) := by
  have isConnected := connects.connected connected
  have reserved := reserves.resume
  have left : before.Connects older (builder.resume.leave target target) :=
    (connects.resume connected).leave (.inl new)
      (reserved.admits (BlockRole.isTarget_of_isJoin isJoin)) reserved new
  obtain ⟨earlier, found⟩ := (reserved.branchTo target).empty
  refine .push (.countTemporary left) rfl rfl fun _ => ⟨⟨role, earlier, found, isJoin⟩, ?_⟩
  refine ⟨first, firstBlock, second, builder.currentIndex, rfl, apart, fun source => ?_⟩
  change (builder.resume.leave target target).Leads source target ↔ _
  rw [leads_leave isConnected, ways]
  exact or_congr_right (and_iff_left rfl)

end Builder

namespace Lowering

open Builder (Connected Connects)

/-- Whether a step builds on with branches that lead to new blocks and to certain older ones. -/
abbrev Connecting {α : Type} (older : Nat → Prop) (step : Build α) (before : Builder) : Prop :=
  Builds step before (fun _ after => before.Connects older after) fun _ => True

variable {α : Type} {older : Nat → Prop} {before : Builder} {program : Program}
  {lower : ExprId → Build Ir.Value}

/-- A step behind others builds on with them. -/
theorem Connecting.behind {step : Build α} {inner : Nat → Prop} {middle : Builder}
    (connecting : Connecting inner step middle) (earlier : before.Connects older middle)
    (allowed : ∀ target, inner target → before.blocks.size ≤ target ∨ older target)
    {onResult : α → Builder → Prop}
    (later : ∀ result after, middle.Connects inner after → before.Connects older after →
      onResult result after) : Builds step middle onResult fun _ => True :=
  connecting.mono (fun result after connects =>
    later result after connects (earlier.trans connects allowed)) fun _ _ => trivial

/-- Whether all expressions are lowered with branches to new blocks only. -/
def LowersConnecting (lower : ExprId → Build Ir.Value) : Prop :=
  ∀ id before, before.Connected → Connecting (fun _ => False) (lower id) before

/-- The initializer of an object is looked up without building anything. -/
theorem initializer_keeps {decl : Decl} :
    Builds (initializer decl) before (fun _ after => after = before) fun _ => True := by
  rw [initializer]
  split
  · exact rfl
  · exact trivial
  · exact trivial

section Expressions

variable (connected : before.Connected) (lowers : LowersConnecting lower)

include connected lowers

theorem lowerLogical_connects (isOr : Bool) (left right : ExprId) :
    Connecting (fun _ => False) (lowerLogical lower isOr left right) before := by
  rw [Connecting, builds_lowerLogical]
  refine (lowers left before connected).mono ?_ fun _ _ => trivial
  intro leftValue split leftConnects
  obtain ⟨splitConnects, awaits, ways⟩ := leftConnects.splitLogical connected leftValue isOr
  have splitConnected := splitConnects.connected connected
  refine (lowers right _ splitConnected).behind splitConnects (fun _ never => never.elim) ?_
  intro rightValue joined rightConnects connects
  have isJoin : (if isOr = true then BlockRole.orEnd else .andEnd).isJoin = true := by
    cases isOr <;> rfl
  have left_lt := Builder.currentIndex_lt (leftConnects.connected connected)
  have new : before.blocks.size ≤ split.resume.blocks.size + 1 :=
    (leftConnects.resume connected).size_le.trans (Nat.le_succ _)
  rw [builds_emit]
  refine connects.meet connected (rightConnects.reserves awaits) isJoin new ?_ fun source => ?_
  · obtain same | later := rightConnects.currentIndex_new (split.splitLogical_current leftValue isOr)
    · rw [same]
      exact Nat.ne_of_lt left_lt
    · exact Nat.ne_of_lt (left_lt.trans_le ((Nat.le_succ _).trans (awaits.lt_size.le.trans later)))
  · rw [rightConnects.leads_older splitConnected awaits.lt_size not_false, ways]

theorem lowerConditional_connects (type : Ir.ValueType) (guard whenTrue whenFalse : ExprId) :
    Connecting (fun _ => False) (lowerConditional lower type guard whenTrue whenFalse) before := by
  rw [Connecting, builds_lowerConditional]
  refine (lowers guard before connected).mono ?_ fun _ _ => trivial
  intro condition split guardConnects
  obtain ⟨splitConnects, awaitsFalse, awaitsEnd, unled⟩ :=
    @Connects.splitThree _ _ _ guardConnects connected condition .condTrue .condFalse .condEnd rfl rfl
  have splitConnected := splitConnects.connected connected
  refine (lowers whenTrue _ splitConnected).behind splitConnects (fun _ never => never.elim) ?_
  intro trueValue turned trueConnects turnedConnects
  have turnedConnected := trueConnects.connected splitConnected
  have newFalse : before.blocks.size ≤ split.blocks.size + 1 :=
    guardConnects.size_le.trans (Nat.le_succ _)
  have newEnd : before.blocks.size ≤ split.blocks.size + 2 :=
    guardConnects.size_le.trans (Nat.le_add_right _ _)
  have reservedFalse := (trueConnects.reserves awaitsFalse).resume
  have reservedEnd := (trueConnects.reserves awaitsEnd).resume
  have leftConnects : before.Connects (fun _ => False)
      (turned.resume.leave (split.blocks.size + 2) (split.blocks.size + 1)) :=
    (turnedConnects.resume connected).leave (.inl newEnd) (reservedEnd.admits rfl) reservedFalse
      newFalse
  have leftConnected := leftConnects.connected connected
  refine (lowers whenFalse _ leftConnected).behind leftConnects (fun _ never => never.elim) ?_
  intro falseValue joined falseConnects connects
  have awaiting : (turned.resume.leave (split.blocks.size + 2) (split.blocks.size + 1)).Reserves
      (split.blocks.size + 2) .condEnd :=
    (reservedEnd.branchTo _).goTo (Nat.ne_of_lt (Nat.lt_succ_self _))
  rw [builds_emit]
  refine connects.meet connected (falseConnects.reserves awaiting) rfl newEnd ?_ fun source => ?_
  · -- The second way ends in the block of the second branch or behind all that the first one has built.
    have true_lt := Builder.currentIndex_lt turnedConnected
    have size_eq : (turned.resume.leave (split.blocks.size + 2)
        (split.blocks.size + 1)).blocks.size = turned.resume.blocks.size := by
      simp [Builder.leave]
    have end_lt := awaitsEnd.lt_size
    have trueIndex := trueConnects.currentIndex_new (split.splitThree_current _ _ _ _)
    have falseIndex := falseConnects.currentIndex_new (turned.resume.leave_current _ _)
    rw [size_eq] at falseIndex
    omega
  · rw [falseConnects.leads_older leftConnected awaiting.lt_size not_false,
      Builder.leads_leave turnedConnected,
      trueConnects.leads_older splitConnected awaitsEnd.lt_size not_false]
    simp [unled]

omit connected in
theorem lowerArguments_connects (ast : Ast) {arguments : List ExprId} {before : Builder}
    (connected : before.Connected) :
    Connecting (fun _ => False) (lowerArguments ast lower arguments) before := by
  induction arguments generalizing before with
  | nil => exact .refl
  | cons argument arguments induction =>
      rw [Connecting, lowerArguments, builds_bind]
      refine (lowers argument before connected).mono ?_ fun _ _ => trivial
      intro value middle connects
      rw [builds_bind]
      exact (induction (connects.connected connected)).behind connects (fun _ never => never.elim)
        fun rest after _ all => all

theorem lowerName_connects (id : DeclId) :
    Connecting (fun _ => False) (lowerName program lower id) before := by
  rw [Connecting, lowerName, builds_bind, builds_get]
  cases before.local? id with
  | some value => exact .refl
  | none =>
      cases program.symbol? id with
      | some value => exact .refl
      | none =>
          dsimp only
          split
          · rw [builds_bind]
            refine initializer_keeps.mono ?_ fun _ _ => trivial
            intro value after after_eq
            rw [after_eq]
            exact lowers value before connected
          · exact trivial

end Expressions

/-- An operation on values may be added behind others. -/
theorem emit_connects {middle : Builder} (connected : before.Connected)
    (connects : before.Connects older middle) {operation : Ir.Operation}
    (plain : operation.isPhi = false ∧ operation.isAlloca = false) :
    Builds (emit operation) middle (fun _ after => before.Connects older after) fun _ => True := by
  rw [builds_emit]
  exact connects.emitted connected plain.1 plain.2

section Forms

variable (connected : before.Connected) (lowers : LowersConnecting lower)

include connected lowers

theorem lowerBinary_connects (ast : Ast) (operator : BinaryOperator) (left right : ExprId) :
    Connecting (fun _ => False) (lowerBinary ast lower operator left right) before := by
  rw [Connecting, lowerBinary, builds_bind]
  refine (lowers left before connected).mono ?_ fun _ _ => trivial
  intro leftValue split leftConnects
  rw [builds_bind]
  refine (lowers right split (leftConnects.connected connected)).behind leftConnects
    (fun _ never => never.elim) ?_
  intro rightValue joined _ connects
  split
  · next operation stands =>
    exact emit_connects connected connects (BinaryOperator.operation?_plain stands)
  · exact trivial

theorem lowerAssignment_connects (ast : Ast) (target value : ExprId) :
    Connecting (fun _ => False) (lowerAssignment ast lower target value) before := by
  rw [Connecting, lowerAssignment, builds_bind]
  refine (lowers target before connected).mono ?_ fun _ _ => trivial
  intro pointer split targetConnects
  rw [builds_bind]
  refine (lowers value split (targetConnects.connected connected)).behind targetConnects
    (fun _ never => never.elim) ?_
  intro stored joined _ connects
  rw [builds_bind, builds_perform]
  exact connects.performed connected rfl rfl

/-- Whatever the form of an expression is, it is lowered with branches to new blocks only. -/
theorem lowerKind_connects (expr : Expr) :
    Connecting (fun _ => False) (lowerKind program lower expr) before := by
  obtain ⟨kind, type, location⟩ := expr
  cases kind with
  | bool | int | float | char => exact .refl
  | name declaration => exact lowerName_connects connected lowers declaration
  | unary operator operand =>
      rw [Connecting, lowerKind]
      dsimp only
      rw [builds_bind]
      refine (lowers operand before connected).mono ?_ fun _ _ => trivial
      intro value middle connects
      exact emit_connects connected connects (UnaryOperator.operation_plain operator value)
  | binary operator left right =>
      have strict := lowerBinary_connects connected lowers program.ast operator left right
      cases operator with
      | logicalAnd => exact lowerLogical_connects connected lowers false left right
      | logicalOr => exact lowerLogical_connects connected lowers true left right
      | _ => exact strict
  | call callee arguments =>
      rw [Connecting, lowerKind]
      dsimp only
      rw [builds_bind]
      refine (lowers callee before connected).mono ?_ fun _ _ => trivial
      intro value middle connects
      rw [builds_bind]
      refine (lowerArguments_connects lowers program.ast (connects.connected connected)).behind
        connects (fun _ never => never.elim) ?_
      intro values after _ all
      exact emit_connects connected all ⟨rfl, rfl⟩
  | index base arguments => exact trivial
  | cast operand => exact lowers operand before connected
  | assign target value => exact lowerAssignment_connects connected lowers _ target value
  | conditional guard whenTrue whenFalse =>
      exact lowerConditional_connects connected lowers _ guard whenTrue whenFalse
  | convert conversion operand =>
      rw [Connecting, lowerKind]
      dsimp only
      rw [builds_bind]
      refine (lowers operand before connected).mono ?_ fun _ _ => trivial
      intro value middle connects
      exact emit_connects connected connects (Conversion.operation_plain conversion _ _ value)

end Forms

/-- Expressions of every nesting are lowered with branches to new blocks only. -/
theorem lowerExprWithin_connects (program : Program) (fuel : Nat) :
    LowersConnecting (lowerExprWithin program fuel) := by
  induction fuel with
  | zero => exact fun _ _ _ => trivial
  | succ fuel induction => exact fun id _ connected => lowerKind_connects connected induction _

theorem lowerExpr_connects (program : Program) : LowersConnecting (lowerExpr program) :=
  fun id before connected => lowerExprWithin_connects program _ id before connected

end Lowering

end Minilang
