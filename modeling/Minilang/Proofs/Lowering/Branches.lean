import Minilang.Proofs.Lowering.Forms
import Minilang.Proofs.Lowering.Growth

/-!
# Growing across branches

The blocks prepared by a branch await being built while building goes on in one of them, and leaving a
block for one that has awaited it only builds on.
-/

namespace Minilang.Builder

variable {before builder : Builder}

/-- Two blocks prepared one after another both await being built. -/
theorem Awaits.twoAdded (valid : builder.Valid) (first second : BlockRole) :
    ((builder.addBlock first).addBlock second).Awaits builder.blocks.size ∧
      ((builder.addBlock first).addBlock second).Awaits (builder.blocks.size + 1) := by
  refine ⟨(Awaits.added valid first).addBlock second, ?_⟩
  have added := Awaits.added (valid.addBlock first) second
  rw [addBlock_size] at added
  exact added

/-- Three blocks prepared one after another all await being built. -/
theorem Awaits.threeAdded (valid : builder.Valid) (first second third : BlockRole) :
    (((builder.addBlock first).addBlock second).addBlock third).Awaits builder.blocks.size ∧
      (((builder.addBlock first).addBlock second).addBlock third).Awaits
        (builder.blocks.size + 1) ∧
      (((builder.addBlock first).addBlock second).addBlock third).Awaits
        (builder.blocks.size + 2) := by
  obtain ⟨start, next⟩ := Awaits.twoAdded valid first second
  refine ⟨start.addBlock third, next.addBlock third, ?_⟩
  have added := Awaits.added ((valid.addBlock first).addBlock second) third
  rw [addBlock_size, addBlock_size] at added
  exact added

/-- Building goes on in a block that has awaited it. -/
theorem Grows.enter (grows : before.Grows builder) {block : Nat} (awaits : builder.Awaits block)
    (new : before.blocks.size ≤ block) : before.Grows (builder.goTo block) :=
  .goTo grows new awaits.fresh

section Logical

variable (valid : builder.Valid) (isOr : Bool) {left : Ir.Value}

include valid

theorem Grows.splitLogical (grows : before.Grows builder) (below : left.Below builder.temporaries) :
    before.Grows (builder.splitLogical isOr left) := by
  obtain ⟨start, next⟩ := Awaits.twoAdded valid.resume (if isOr then .orRhs else .andRhs)
    (if isOr then .orEnd else .andEnd)
  have prepared := (grows.resume.addBlock (if isOr then .orRhs else .andRhs)).addBlock
    (if isOr then .orEnd else .andEnd)
  have closed := prepared.endWith (if isOr
      then .condBranch left (builder.resume.blocks.size + 1) builder.resume.blocks.size
      else .condBranch left builder.resume.blocks.size (builder.resume.blocks.size + 1))
    (by cases isOr <;> simpa [Ir.Terminator.operands] using below)
    (by
      intro block isSuccessor
      have targets : block = builder.resume.blocks.size ∨
          block = builder.resume.blocks.size + 1 := by
        cases isOr <;> simpa [Ir.Terminator.successors, or_comm] using isSuccessor
      rcases targets with rfl | rfl
      · exact start.fresh.lt_size
      · exact next.fresh.lt_size)
  exact closed.enter (start.endWith _) grows.resume.size_le

theorem Awaits.splitLogical (left : Ir.Value) :
    (builder.splitLogical isOr left).Awaits (builder.resume.blocks.size + 1) := by
  obtain ⟨start, next⟩ := Awaits.twoAdded valid.resume (if isOr then .orRhs else .andRhs)
    (if isOr then .orEnd else .andEnd)
  exact (next.endWith _).goTo (Nat.ne_of_lt (Nat.lt_succ_self _))

end Logical

section Conditions

variable (valid : builder.Valid) (first second third : BlockRole) {condition : Ir.Value}

include valid

theorem Grows.splitTwo (grows : before.Grows builder)
    (below : condition.Below builder.temporaries) :
    before.Grows (builder.splitTwo first second condition) := by
  obtain ⟨start, next⟩ := Awaits.twoAdded valid first second
  have closed := ((grows.addBlock first).addBlock second).endWith
    (.condBranch condition builder.blocks.size (builder.blocks.size + 1))
    (by simpa [Ir.Terminator.operands] using below)
    (by
      rw [Ir.Terminator.successors, List.forall_mem_cons, List.forall_mem_singleton]
      exact ⟨start.fresh.lt_size, next.fresh.lt_size⟩)
  exact closed.enter (start.endWith _) grows.size_le

theorem Awaits.splitTwo (condition : Ir.Value) :
    (builder.splitTwo first second condition).Awaits (builder.blocks.size + 1) :=
  ((Awaits.twoAdded valid first second).2.endWith _).goTo (Nat.ne_of_lt (Nat.lt_succ_self _))

theorem Grows.splitThree (grows : before.Grows builder)
    (below : condition.Below builder.temporaries) :
    before.Grows (builder.splitThree first second third condition) := by
  obtain ⟨start, next, last⟩ := Awaits.threeAdded valid first second third
  have closed := (((grows.addBlock first).addBlock second).addBlock third).endWith
    (.condBranch condition builder.blocks.size (builder.blocks.size + 1))
    (by simpa [Ir.Terminator.operands] using below)
    (by
      rw [Ir.Terminator.successors, List.forall_mem_cons, List.forall_mem_singleton]
      exact ⟨start.fresh.lt_size, next.fresh.lt_size⟩)
  exact closed.enter (start.endWith _) grows.size_le

theorem Awaits.splitThree (condition : Ir.Value) :
    (builder.splitThree first second third condition).Awaits (builder.blocks.size + 1) ∧
      (builder.splitThree first second third condition).Awaits (builder.blocks.size + 2) := by
  obtain ⟨start, next, last⟩ := Awaits.threeAdded valid first second third
  exact ⟨(next.endWith _).goTo (Nat.ne_of_lt (Nat.lt_succ_self _)),
    (last.endWith _).goTo (Nat.ne_of_lt (Nat.lt_add_of_pos_right Nat.two_pos))⟩

theorem Grows.startLoop (grows : before.Grows builder) : before.Grows builder.startLoop := by
  obtain ⟨start, next, last⟩ := Awaits.threeAdded valid .whileCond .whileBody .whileEnd
  have closed := (((grows.addBlock .whileCond).addBlock .whileBody).addBlock .whileEnd).endWith
    (.branch builder.blocks.size) (by simp [Ir.Terminator.operands])
    (by
      rw [Ir.Terminator.successors, List.forall_mem_singleton]
      exact start.fresh.lt_size)
  exact closed.enter (start.endWith _) grows.size_le

theorem Awaits.startLoop :
    builder.startLoop.Awaits (builder.blocks.size + 1) ∧
      builder.startLoop.Awaits (builder.blocks.size + 2) := by
  obtain ⟨start, next, last⟩ := Awaits.threeAdded valid .whileCond .whileBody .whileEnd
  exact ⟨(next.endWith _).goTo (Nat.ne_of_lt (Nat.lt_succ_self _)),
    (last.endWith _).goTo (Nat.ne_of_lt (Nat.lt_add_of_pos_right Nat.two_pos))⟩

end Conditions

/-- The open block is left for one that has awaited being built. -/
theorem Grows.leave (grows : before.Grows builder) {target next : Nat}
    (target_lt : target < builder.blocks.size) (awaits : builder.Awaits next)
    (new : before.blocks.size ≤ next) : before.Grows (builder.leave target next) :=
  (grows.branchTo target_lt).enter (awaits.branchTo target) new

/-- A block that has awaited being built is one that building can go on in. -/
theorem Valid.leave (valid : builder.Valid) {next : Nat} (awaits : builder.Awaits next)
    (target : Nat) : (builder.leave target next).Valid := by
  refine ⟨?_, fun declaration value found => ?_⟩
  · rintro _ ⟨rfl⟩
    obtain ⟨role, earlier, found⟩ := (awaits.branchTo target).fresh
    exact ⟨_, found, rfl⟩
  · rw [local?, leave_locals] at found
    rw [leave_temporaries]
    exact valid.localsBelow declaration value found

/-- Leaving the open block keeps what has been built. -/
theorem Includes.leave (wellFormed : builder.WellFormed) (target next : Nat) :
    builder.Includes (builder.leave target next) := by
  rw [Builder.leave, Builder.branchTo]
  cases current : builder.current with
  | none => exact .goTo builder next
  | some block => exact (Includes.close wellFormed current _).trans (.goTo _ next)

/-- Other blocks still await being built. -/
theorem Awaits.leave {block next : Nat} (awaits : builder.Awaits block) (target : Nat)
    (different : next ≠ block) : (builder.leave target next).Awaits block :=
  (awaits.branchTo target).goTo different

end Minilang.Builder
