import Minilang.Proofs.Lowering.ExpressionControlFlow

/-!
# Control flow of lowered statements

Every form of statement builds on a connected function with branches that lead to the blocks it has made
itself and, out of the body of a loop, to the ends of that loop, in which no ways are counted.
-/

namespace Minilang.Lowering

open Builder (Connected Connects Stays)

variable {α : Type} {older : Nat → Prop} {before : Builder} {program : Program}
  {result : Ir.ValueType} {guard : ExprId}

/-- Whether a jump out of the innermost loop leads to a block. -/
def Jumps (loop : Option LoopTargets) (target : Nat) : Prop :=
  ∃ targets, loop = some targets ∧ (target = targets.continueBlock ∨ target = targets.breakBlock)

/-- Whether a step builds on where jumps lead to certain older blocks. -/
def Jumping {α : Type} (older : Nat → Prop) (step : Build α) : Prop :=
  ∀ before, before.Connected → before.Stays older → Connecting older step before

/-- An expression is lowered before the rest of a statement. -/
theorem lowerExpr_before (program : Program) (id : ExprId) {middle : Builder}
    (connected : before.Connected) (earlier : before.Connects older middle)
    {onResult : Ir.Value → Builder → Prop}
    (later : ∀ value after, middle.Connects (fun _ => False) after → before.Connects older after →
      onResult value after) : Builds (lowerExpr program id) middle onResult fun _ => True :=
  (lowerExpr_connects program id middle (earlier.connected connected)).behind earlier
    (fun _ never => never.elim) later

/-- A part of a statement that jumps where the statement may jump. -/
theorem Jumping.behind {step : Build α} (jumping : Jumping older step) {middle : Builder}
    (connected : before.Connected) (stays : before.Stays older)
    (earlier : before.Connects older middle) {onResult : α → Builder → Prop}
    (later : ∀ result after, middle.Connects older after → before.Connects older after →
      onResult result after) : Builds step middle onResult fun _ => True :=
  (jumping middle (earlier.connected connected) (stays.mono (earlier.includes connected))).behind
    earlier (fun _ => .inr) later

theorem lowerWhen_connects {body : Build Unit} (body_jumps : Jumping older body) :
    Jumping older (lowerWhen program guard body) := by
  intro before connected stays
  rw [Connecting, builds_lowerWhen]
  have atStart : before.Connects older before := .refl
  refine lowerExpr_before program guard connected atStart ?_
  intro condition split _ guardConnects
  obtain ⟨splitConnects, awaits⟩ :=
    @Connects.splitTwo _ _ _ guardConnects connected condition .whenThen .whenEnd rfl rfl
  refine body_jumps.behind connected stays splitConnects ?_
  intro _ joined bodyConnects connects
  have reserved := bodyConnects.reserves awaits
  have new : before.blocks.size ≤ split.blocks.size + 1 :=
    guardConnects.size_le.trans (Nat.le_succ _)
  exact connects.leave (.inl new) (reserved.admits rfl) reserved new

theorem lowerIf_connects {whenTrue whenFalse : Build Unit} (true_jumps : Jumping older whenTrue)
    (false_jumps : Jumping older whenFalse) :
    Jumping older (lowerIf program guard whenTrue whenFalse) := by
  intro before connected stays
  rw [Connecting, builds_lowerIf]
  have atStart : before.Connects older before := .refl
  refine lowerExpr_before program guard connected atStart ?_
  intro condition split _ guardConnects
  obtain ⟨splitConnects, awaitsFalse, awaitsEnd, -⟩ :=
    @Connects.splitThree _ _ _ guardConnects connected condition .ifThen .ifElse .ifEnd rfl rfl
  refine true_jumps.behind connected stays splitConnects ?_
  intro _ turned trueConnects turnedConnects
  have newFalse : before.blocks.size ≤ split.blocks.size + 1 :=
    guardConnects.size_le.trans (Nat.le_succ _)
  have newEnd : before.blocks.size ≤ split.blocks.size + 2 :=
    guardConnects.size_le.trans (Nat.le_add_right _ _)
  have reservedEnd := trueConnects.reserves awaitsEnd
  have leftConnects := turnedConnects.leave (.inl newEnd) (reservedEnd.admits rfl)
    (trueConnects.reserves awaitsFalse) newFalse
  refine false_jumps.behind connected stays leftConnects ?_
  intro _ joined falseConnects connects
  have reserved := falseConnects.reserves
    ((reservedEnd.branchTo _).goTo (Nat.ne_of_lt (Nat.lt_succ_self (split.blocks.size + 1))))
  exact connects.leave (.inl newEnd) (reserved.admits rfl) reserved newEnd

/-- The guard and the end of a loop are new blocks to which jumps may lead all the time. -/
theorem lowerWhile_connects (body : LoopTargets → Build Unit)
    (body_jumps : ∀ targets, Jumping (Jumps (some targets)) (body targets)) :
    Jumping older (lowerWhile program guard body) := by
  intro before connected stays
  rw [Connecting, builds_lowerWhile]
  have atStart : before.Connects older before := .refl
  obtain ⟨startConnects, tests, awaitsBody, awaitsEnd⟩ := atStart.startLoop connected
  have startConnected := startConnects.connected connected
  refine lowerExpr_before program guard connected startConnects ?_
  intro condition tested guardConnects testedConnects
  have newBody : before.blocks.size ≤ before.blocks.size + 1 := Nat.le_succ _
  have newEnd : before.blocks.size ≤ before.blocks.size + 2 := Nat.le_add_right _ _
  have reservedBody := guardConnects.reserves awaitsBody
  have reservedEnd := guardConnects.reserves awaitsEnd
  have enters : before.Connects older
      ((tested.endWith (.condBranch condition (before.blocks.size + 1)
        (before.blocks.size + 2))).goTo (before.blocks.size + 1)) := by
    refine .goTo (testedConnects.endWith connected ?_) newBody (reservedBody.endWith _)
    rw [Ir.Terminator.successors, List.forall_mem_cons, List.forall_mem_singleton]
    exact ⟨⟨.inl newBody, reservedBody.admits rfl⟩, .inl newEnd, reservedEnd.admits rfl⟩
  have entersConnected := enters.connected connected
  have bodyAwaitsEnd : ((tested.endWith (.condBranch condition (before.blocks.size + 1)
      (before.blocks.size + 2))).goTo (before.blocks.size + 1)).Reserves (before.blocks.size + 2)
      .whileEnd := (reservedEnd.endWith _).goTo (Nat.ne_of_lt (Nat.lt_succ_self _))
  have testsLater := tests.of_includes (guardConnects.includes startConnected)
  have targets_stay : ((tested.endWith (.condBranch condition (before.blocks.size + 1)
      (before.blocks.size + 2))).goTo (before.blocks.size + 1)).Stays
      (Jumps (some ⟨before.blocks.size, before.blocks.size + 2⟩)) := by
    rintro target ⟨_, ⟨rfl⟩, rfl | rfl⟩
    · exact ⟨.whileCond, testsLater.endWith (testedConnects.connected connected) _, rfl, rfl⟩
    · obtain ⟨earlier, found⟩ := bodyAwaitsEnd.empty
      exact ⟨.whileEnd, ⟨_, found, rfl⟩, rfl, rfl⟩
  refine (body_jumps ⟨before.blocks.size, before.blocks.size + 2⟩ _ entersConnected
    targets_stay).behind enters ?_ ?_
  · rintro target ⟨_, ⟨rfl⟩, rfl | rfl⟩
    · exact .inl le_rfl
    · exact .inl newEnd
  · intro _ turned bodyConnects connects
    have turnedConnected := connects.connected connected
    have turnedStays := targets_stay.mono (bodyConnects.includes entersConnected)
    exact connects.leave (.inl le_rfl) (turnedStays.admits turnedConnected ⟨_, rfl, .inl rfl⟩)
      (bodyConnects.reserves bodyAwaitsEnd) newEnd

/-- A jump leads where jumps may lead. -/
theorem lowerJump_connects {loop : Option LoopTargets} (target : LoopTargets → Nat)
    (isTarget : ∀ targets, loop = some targets → Jumps loop (target targets)) (location : Location)
    (error : SemanticError) : Jumping (Jumps loop) (lowerJump loop target location error) := by
  intro before connected stays
  cases loop with
  | none => exact trivial
  | some targets =>
      rw [Connecting, lowerJump, builds_terminate]
      refine Connects.refl.endWith connected ?_
      rw [Ir.Terminator.successors, List.forall_mem_singleton]
      have jumps := isTarget targets rfl
      exact ⟨.inr jumps, stays.admits connected jumps⟩

theorem lowerLocal_connects (id : DeclId) : Jumping older (lowerLocal program id) := by
  intro before connected _
  have atStart : before.Connects older before := .refl
  rw [Connecting, lowerLocal]
  split
  · next type _ _ =>
    simp only [builds_bind, builds_allocate, builds_bindLocal, builds_perform]
    refine initializer_keeps.mono ?_ fun _ _ => trivial
    intro value after after_eq
    rw [after_eq]
    have bound : before.Connects older
        ((before.addAlloca (.ofTy type)).bind id (.temp before.temporaries)) :=
      .bind _ _ (.addAlloca _ atStart)
    refine lowerExpr_before program value connected bound ?_
    intro stored after _ connects
    exact connects.performed connected rfl rfl
  · rw [builds_bind]
    refine initializer_keeps.mono ?_ fun _ _ => trivial
    intro value after after_eq
    rw [after_eq, builds_bind]
    refine lowerExpr_before program value connected atStart ?_
    intro bound after _ connects
    exact .bind _ _ connects
  · exact trivial

theorem lowerSequence_connects {lowerStmt : StmtId → Build Unit} (statements : List StmtId)
    (jumps : ∀ id, Jumping older (lowerStmt id)) : Jumping older (lowerSequence lowerStmt statements) := by
  induction statements with
  | nil => exact fun before _ _ => .refl
  | cons id statements induction =>
      intro before connected stays
      rw [Connecting, lowerSequence, builds_bind]
      refine (jumps id before connected stays).mono ?_ fun _ _ => trivial
      intro _ middle connects
      exact induction.behind connected stays connects fun _ after _ all => all

/-- Whatever the form of a statement is, its branches lead to new blocks and, out of a loop, to the ends
of the loop. -/
theorem lowerForm_connects {lowerStmt : Option LoopTargets → StmtId → Build Unit}
    (jumps : ∀ loop id, Jumping (Jumps loop) (lowerStmt loop id)) (loop : Option LoopTargets)
    (statement : Stmt) : Jumping (Jumps loop) (lowerForm program result lowerStmt loop statement) := by
  cases statement with
  | block statements => exact lowerSequence_connects statements (jumps loop)
  | whenTrue guard body => exact lowerWhen_connects (jumps loop body)
  | ifElse guard whenTrue whenFalse =>
      exact lowerIf_connects (jumps loop whenTrue) (jumps loop whenFalse)
  | whileTrue guard body =>
      exact lowerWhile_connects (fun targets => lowerStmt (some targets) body)
        fun targets => jumps (some targets) body
  | breakLoop location =>
      exact lowerJump_connects LoopTargets.breakBlock
        (fun targets inLoop => ⟨targets, inLoop, .inr rfl⟩) location .breakOutsideLoop
  | continueLoop location =>
      exact lowerJump_connects LoopTargets.continueBlock
        (fun targets inLoop => ⟨targets, inLoop, .inl rfl⟩) location .continueOutsideLoop
  | returnValue value =>
      intro before connected _
      have atStart : before.Connects (Jumps loop) before := .refl
      rw [Connecting, lowerForm, builds_bind]
      refine lowerExpr_before program value connected atStart ?_
      intro returned after _ connects
      rw [builds_terminate]
      exact connects.endWith connected fun target member => by cases member
  | declaration id => exact lowerLocal_connects id
  | expression value =>
      intro before connected _
      have atStart : before.Connects (Jumps loop) before := .refl
      rw [Connecting, lowerForm, builds_bind]
      refine lowerExpr_before program value connected atStart ?_
      exact fun _ after _ connects => connects

/-- Statements of every nesting build on what is connected. -/
theorem lowerStmtWithin_connects (program : Program) (result : Ir.ValueType) (fuel : Nat)
    (loop : Option LoopTargets) (id : StmtId) :
    Jumping (Jumps loop) (lowerStmtWithin program result fuel loop id) := by
  induction fuel generalizing loop id with
  | zero => exact fun _ _ _ => trivial
  | succ fuel induction => exact lowerForm_connects induction loop _

end Minilang.Lowering
