import Minilang.Proofs.Lowering.Expressions
import Minilang.Proofs.Lowering.Flow

/-!
# Flow of temporaries in expressions

Lowering an expression uses nothing but what is offered where it starts, as long as the values of its names
are, and the value that comes out is offered behind it.
-/

namespace Minilang.Lowering

open Builder (Flowing Carries Grows)

/-- Whether a name can be lowered where building goes on: it is available, and its value is offered. -/
structure Usable (program : Program) (before : Builder) (entries : Entries) (declaration : DeclId) :
    Prop where
  available : Available program before declaration
  offered : ∀ temporary, before.local? declaration = some (.temp temporary) →
    before.Offered entries temporary

/-- A value comes out that is offered behind its computation. -/
def OffersValue (before : Builder) (entries : Entries) (value : Ir.Value) (after : Builder) : Prop :=
  ∃ later, before.Carries entries after later ∧
    ∀ temporary, value = .temp temporary → after.Offered later temporary

/-- A function that lowers an expression wherever its names are usable, using only what is offered. -/
def FlowsExpr (program : Program) (lower : ExprId → Build Ir.Value) (id : ExprId) : Prop :=
  ∀ (before : Builder) (entries : Entries), before.Flowing entries →
    (∀ declaration ∈ program.declarations, before.local? declaration = none) →
    program.ast.Names (Usable program before entries) id →
    Builds (lower id) before
      (fun value after => GivesValue before value after ∧ OffersValue before entries value after)
      fun _ => False

variable {program : Program} {lower : ExprId → Build Ir.Value} {before middle after : Builder}
  {entries between later : Entries} {operation : Ir.Operation}

/-- Names stay usable as long as no name gets a value. -/
theorem Usable.carry {declaration : DeclId} (usable : Usable program before entries declaration)
    (carries : before.Carries entries after later) (locals_eq : after.locals = before.locals) :
    Usable program after later declaration := by
  constructor
  · rw [available_of_locals_eq locals_eq]
    exact usable.available
  · intro temporary found
    rw [Builder.local?, locals_eq] at found
    exact carries.offered temporary (usable.offered temporary found)

theorem FlowsExpr.behind {id : ExprId} (flows : FlowsExpr program lower id)
    (unbound : ∀ declaration ∈ program.declarations, before.local? declaration = none)
    (names : program.ast.Names (Usable program before entries) id)
    (carries : before.Carries entries middle between) (locals_eq : middle.locals = before.locals) :
    Builds (lower id) middle
      (fun value after => GivesValue middle value after ∧ OffersValue middle between value after)
      fun _ => False := by
  refine flows middle between carries.flowing ?_
    (names.mono fun _ usable => usable.carry carries locals_eq)
  intro declaration atTop
  rw [Builder.local?, locals_eq]
  exact unbound declaration atTop

/-- An instruction over what is offered gives its temporary. -/
theorem emit_flows (carries : before.Carries entries middle between)
    (below : ∀ value ∈ operation.operands, value.Below middle.temporaries)
    (notPhi : operation.incoming = [])
    (operands : ∀ temporary, .temp temporary ∈ operation.operands →
      middle.Offered between temporary) :
    Builds (emit operation) middle (OffersValue before entries) fun _ => False := by
  rw [builds_emit]
  obtain ⟨emitted, offered⟩ := Carries.emit carries.flowing below
    (fun _ => operands) (by simp [notPhi])
  refine ⟨between, carries.trans emitted, ?_⟩
  rintro _ ⟨rfl⟩
  exact offered

/-- Values that are offered at the ends of closed blocks may meet. -/
theorem phi_flows {type : Ir.ValueType} {sources : List (Ir.Value × Nat)}
    (carries : before.Carries entries middle between)
    (below : ∀ source ∈ sources, source.1.Below middle.temporaries)
    (incoming : ∀ temporary source, (.temp temporary, source) ∈ sources →
      middle.Closed source ∧ middle.Offers between source temporary) :
    Builds (emit (.phi type sources)) middle (OffersValue before entries) fun _ => False := by
  rw [builds_emit]
  have below' : ∀ value ∈ (Ir.Operation.phi type sources).operands,
      value.Below middle.temporaries := by
    intro value operand
    obtain ⟨source, member, rfl⟩ := List.mem_map.1 operand
    exact below source member
  obtain ⟨emitted, offered⟩ := Carries.emit carries.flowing below' nofun incoming
  refine ⟨between, carries.trans emitted, ?_⟩
  rintro _ ⟨rfl⟩
  exact offered

section Forms

variable (flowing : before.Flowing entries)
  (unbound : ∀ declaration ∈ program.declarations, before.local? declaration = none)

include flowing unbound

theorem lowerLogical_flows (isOr : Bool) {left right : ExprId}
    (flowsLeft : FlowsExpr program lower left) (flowsRight : FlowsExpr program lower right)
    (leftNames : program.ast.Names (Usable program before entries) left)
    (rightNames : program.ast.Names (Usable program before entries) right) :
    Builds (lowerLogical lower isOr left right) before (OffersValue before entries)
      fun _ => False := by
  rw [builds_lowerLogical]
  refine (flowsLeft before entries flowing unbound leftNames).mono ?_ fun _ => id
  rintro leftValue split ⟨givesLeft, between, toSplit, leftOffered⟩
  obtain ⟨forked, toFork, onward⟩ := Carries.splitLogical toSplit.flowing givesLeft.below
    leftOffered isOr
  have started := toSplit.trans toFork
  refine (flowsRight.behind unbound rightNames started (by simp [givesLeft.locals_eq])).mono ?_
    fun _ => id
  rintro rightValue joined ⟨givesRight, later, toJoined, rightOffered⟩
  have awaitsFork := Builder.Awaits.splitLogical toSplit.flowing.valid isOr leftValue
  have awaits := (awaitsFork.of_grows toJoined.grows).resume
  have resumed := toJoined.trans (.resume toJoined.flowing)
  have new : before.blocks.size ≤ split.resume.blocks.size + 1 :=
    (toSplit.grows.resume.size_le).trans (Nat.le_succ _)
  have given (temporary : Nat) (offered : before.Offered entries temporary) :
      later (split.resume.blocks.size + 1) temporary := by
    rw [toJoined.kept _ awaitsFork.fresh.lt_size]
    exact onward temporary (toSplit.offered temporary offered)
  have all := started.trans resumed
  have left := Carries.join all.grows all.flowing all.kept awaits new awaits new given all.offered
  refine phi_flows left ?_ ?_
  · intro source member
    rw [List.mem_cons, List.mem_singleton] at member
    rcases member with rfl | rfl
    · trivial
    · simpa using givesRight.below
  · intro temporary source member
    rw [List.mem_cons, List.mem_singleton, Prod.mk.injEq, Prod.mk.injEq] at member
    rcases member with ⟨isConstant, _⟩ | ⟨rfl, rfl⟩
    · cases isConstant
    have current := joined.resume_current
    obtain ⟨closed, includes⟩ := Builder.closed_leave all.flowing.valid.wellFormed current
      (split.resume.blocks.size + 1) (split.resume.blocks.size + 1)
    have offers := toJoined.flowing.offered_resume (rightOffered temporary rfl) _ current
    have different : joined.currentIndex ≠ split.resume.blocks.size + 1 :=
      fun same => awaits.elsewhere (same ▸ current)
    exact ⟨closed, (offers.of_given_eq (Entries.narrow_of_ne different)).mono includes⟩

theorem lowerConditional_flows (type : Ir.ValueType) {guard whenTrue whenFalse : ExprId}
    (flowsGuard : FlowsExpr program lower guard) (flowsTrue : FlowsExpr program lower whenTrue)
    (flowsFalse : FlowsExpr program lower whenFalse)
    (guardNames : program.ast.Names (Usable program before entries) guard)
    (trueNames : program.ast.Names (Usable program before entries) whenTrue)
    (falseNames : program.ast.Names (Usable program before entries) whenFalse) :
    Builds (lowerConditional lower type guard whenTrue whenFalse) before
      (OffersValue before entries) fun _ => False := by
  rw [builds_lowerConditional]
  refine (flowsGuard before entries flowing unbound guardNames).mono ?_ fun _ => id
  rintro condition split ⟨givesGuard, between, toSplit, conditionOffered⟩
  obtain ⟨forked, toFork, onward, untouched⟩ := Carries.splitThree toSplit.flowing givesGuard.below
    conditionOffered .condTrue .condFalse .condEnd
  obtain ⟨awaitsFalse, awaitsEnd⟩ := Builder.Awaits.splitThree toSplit.flowing.valid .condTrue
    .condFalse .condEnd condition
  have started := toSplit.trans toFork
  have new : before.blocks.size ≤ split.blocks.size := toSplit.grows.size_le
  refine (flowsTrue.behind unbound trueNames started (by simp [givesGuard.locals_eq])).mono ?_
    fun _ => id
  rintro trueValue turned ⟨givesTrue, turnedEntries, toTurned, trueOffered⟩
  have turnedAwaitsFalse := (awaitsFalse.of_grows toTurned.grows).resume
  have turnedAwaitsEnd := (awaitsEnd.of_grows toTurned.grows).resume
  have turnedAll := started.trans (toTurned.trans (.resume toTurned.flowing))
  have toFalse := Carries.join turnedAll.grows turnedAll.flowing turnedAll.kept turnedAwaitsEnd
    (new.trans (Nat.le_add_right _ 2)) turnedAwaitsFalse (new.trans (Nat.le_succ _))
    (fun temporary offered => by
      rw [toTurned.kept _ awaitsFalse.fresh.lt_size]
      exact onward temporary (toSplit.offered temporary offered))
    turnedAll.offered
  obtain ⟨trueClosed, trueIncludes⟩ := Builder.closed_leave turnedAll.flowing.valid.wellFormed
    turned.resume_current (split.blocks.size + 2) (split.blocks.size + 1)
  have trueDifferent : turned.currentIndex ≠ split.blocks.size + 2 :=
    fun same => turnedAwaitsEnd.elsewhere (same ▸ turned.resume_current)
  have falseAwaitsEnd := turnedAwaitsEnd.leave (split.blocks.size + 2)
    (Nat.ne_of_lt (Nat.lt_succ_self (split.blocks.size + 1)))
  refine (flowsFalse.behind unbound falseNames toFalse
    (by simp [givesTrue.locals_eq, givesGuard.locals_eq])).mono ?_ fun _ => id
  rintro falseValue joined ⟨givesFalse, joinedEntries, toJoined, falseOffered⟩
  have joinedAwaitsEnd := (falseAwaitsEnd.of_grows toJoined.grows).resume
  have joinedAll := toFalse.trans (toJoined.trans (.resume toJoined.flowing))
  have toEnd := Carries.join joinedAll.grows joinedAll.flowing joinedAll.kept joinedAwaitsEnd
    (new.trans (Nat.le_add_right _ 2)) joinedAwaitsEnd (new.trans (Nat.le_add_right _ 2))
    (fun temporary offered => by
      rw [toJoined.kept _ falseAwaitsEnd.fresh.lt_size]
      refine ⟨?_, fun _ => turnedAll.offered temporary offered⟩
      rw [toTurned.kept _ awaitsEnd.fresh.lt_size]
      exact untouched temporary)
    joinedAll.offered
  obtain ⟨falseClosed, falseIncludes⟩ := Builder.closed_leave joinedAll.flowing.valid.wellFormed
    joined.resume_current (split.blocks.size + 2) (split.blocks.size + 2)
  have toResumed := toJoined.trans (.resume toJoined.flowing)
  have includes := (toResumed.grows.includes toFalse.flowing.valid.wellFormed).trans falseIncludes
  refine phi_flows toEnd ?_ ?_
  · intro source member
    rw [List.mem_cons, List.mem_singleton] at member
    rcases member with rfl | rfl
    · have trueBelow := givesTrue.below.mono
        (by simpa using givesFalse.grows.temporaries_le : turned.temporaries ≤ joined.temporaries)
      simpa using trueBelow
    · simpa using givesFalse.below
  · intro temporary source member
    rw [List.mem_cons, List.mem_singleton, Prod.mk.injEq, Prod.mk.injEq] at member
    rcases member with ⟨rfl, rfl⟩ | ⟨rfl, rfl⟩
    · refine ⟨trueClosed.mono includes, ?_⟩
      have offers := toTurned.flowing.offered_resume (trueOffered temporary rfl) _
        turned.resume_current
      have bound := trueClosed.lt_size
      have same : (joinedEntries.narrow (split.blocks.size + 2)
          (joined.resume.Offered joinedEntries)) turned.currentIndex =
          turnedEntries turned.currentIndex := by
        rw [Entries.narrow_of_ne trueDifferent, toJoined.kept _ bound,
          Entries.narrow_of_ne trueDifferent]
      exact (((offers.mono trueIncludes).mono includes).of_given_eq same)
    · have offers := toJoined.flowing.offered_resume (falseOffered temporary rfl) _
        joined.resume_current
      have different : joined.currentIndex ≠ split.blocks.size + 2 :=
        fun same => joinedAwaitsEnd.elsewhere (same ▸ joined.resume_current)
      exact ⟨falseClosed, (offers.of_given_eq (Entries.narrow_of_ne different)).mono falseIncludes⟩

theorem lowerName_flows (coherent : program.Coherent) {declaration : DeclId}
    (usable : Usable program before entries declaration)
    (flows : ∀ initializer,
      (program.ast.kindOf declaration).isConstant = true →
      (program.ast.kindOf declaration).initializer? = some initializer →
      FlowsExpr program lower initializer) :
    Builds (lowerName program lower declaration) before (OffersValue before entries)
      fun _ => False := by
  cases usable.available.form coherent with
  | bound found =>
      rw [builds_lowerName_of_local found]
      refine ⟨entries, .refl flowing, fun temporary same => usable.offered temporary ?_⟩
      rw [found, same]
  | function notLocal atTop kind_eq =>
      rw [builds_lowerName_of_function notLocal atTop kind_eq]
      exact ⟨entries, .refl flowing, fun _ same => by cases same⟩
  | global notLocal atTop kind_eq =>
      rw [builds_lowerName_of_variable notLocal atTop kind_eq]
      exact ⟨entries, .refl flowing, fun _ same => by cases same⟩
  | constant notLocal atTop constant =>
      rw [builds_lowerName_of_constant notLocal atTop constant.kind_eq constant.different]
      refine (flows _ constant.isConstant constant.initialized before entries flowing unbound
        ?_).mono (fun _ _ both => both.2) fun _ => id
      refine constant.names.mono fun other member => ⟨.inr member, fun temporary isLocal => ?_⟩
      rw [unbound other member] at isLocal
      cases isLocal

theorem lowerBinary_flows {operator : BinaryOperator} {left right : ExprId}
    (flowsLeft : FlowsExpr program lower left) (flowsRight : FlowsExpr program lower right)
    (leftNames : program.ast.Names (Usable program before entries) left)
    (rightNames : program.ast.Names (Usable program before entries) right)
    (stands : ∀ leftValue rightValue, ∃ operation,
      operator.operation? (valueType program.ast left) leftValue rightValue = some operation ∧
        operation.operands = [leftValue, rightValue] ∧ operation.incoming = []) :
    Builds (lowerBinary program.ast lower operator left right) before (OffersValue before entries)
      fun _ => False := by
  rw [lowerBinary, builds_bind]
  refine (flowsLeft before entries flowing unbound leftNames).mono ?_ fun _ => id
  rintro leftValue middle ⟨givesLeft, between, toMiddle, leftOffered⟩
  rw [builds_bind]
  refine (flowsRight.behind unbound rightNames toMiddle givesLeft.locals_eq).mono ?_ fun _ => id
  rintro rightValue after ⟨givesRight, later, toAfter, rightOffered⟩
  obtain ⟨operation, stands, operands_eq, notPhi⟩ := stands leftValue rightValue
  rw [stands]
  refine emit_flows (toMiddle.trans toAfter) ?_ notPhi ?_
  · rw [operands_eq, List.forall_mem_cons]
    exact ⟨givesLeft.below_later givesRight, by simpa using givesRight.below⟩
  · intro temporary operand
    rw [operands_eq, List.mem_cons, List.mem_singleton] at operand
    rcases operand with rfl | rfl
    · exact toAfter.offered temporary (leftOffered temporary rfl)
    · exact rightOffered temporary rfl

theorem lowerArguments_flows {arguments : List ExprId}
    (flows : ∀ argument ∈ arguments, FlowsExpr program lower argument)
    (names : ∀ argument ∈ arguments,
      program.ast.Names (Usable program before entries) argument) :
    Builds (lowerArguments program.ast lower arguments) before
      (fun values after => GivesValues before values after ∧
        ∃ later, before.Carries entries after later ∧
          ∀ temporary, .temp temporary ∈ values.map Prod.snd → after.Offered later temporary)
      fun _ => False := by
  induction arguments generalizing before entries with
  | nil =>
      rw [lowerArguments, builds_pure]
      exact ⟨⟨.refl, rfl, by simp, id⟩, entries, .refl flowing, by simp⟩
  | cons argument arguments induction =>
      rw [List.forall_mem_cons] at flows names
      rw [lowerArguments, builds_bind]
      refine (flows.1 before entries flowing unbound names.1).mono ?_ fun _ => id
      rintro value middle ⟨gives, between, toMiddle, offered⟩
      rw [builds_bind]
      have unbound' : ∀ declaration ∈ program.declarations,
          middle.local? declaration = none := by
        intro declaration atTop
        rw [Builder.local?, gives.locals_eq]
        exact unbound declaration atTop
      refine (induction toMiddle.flowing unbound' flows.2 fun argument member =>
        (names.2 argument member).mono fun _ usable =>
          usable.carry toMiddle gives.locals_eq).mono ?_ fun _ => id
      rintro values after ⟨givesRest, later, toAfter, restOffered⟩
      rw [builds_pure]
      constructor
      · refine ⟨gives.grows.trans givesRest.grows, givesRest.locals_eq.trans gives.locals_eq, ?_,
          fun current => givesRest.current_kept (gives.current_kept current)⟩
        rw [List.map_cons, List.forall_mem_cons]
        exact ⟨gives.below.mono givesRest.grows.temporaries_le, givesRest.below⟩
      · refine ⟨later, toMiddle.trans toAfter, fun temporary member => ?_⟩
        rw [List.map_cons, List.mem_cons] at member
        rcases member with same | member
        · exact toAfter.offered temporary (offered temporary same.symm)
        · exact restOffered temporary member

theorem lowerAssignment_flows {target value : ExprId}
    (flowsTarget : FlowsExpr program lower target) (flowsValue : FlowsExpr program lower value)
    (targetNames : program.ast.Names (Usable program before entries) target)
    (valueNames : program.ast.Names (Usable program before entries) value) :
    Builds (lowerAssignment program.ast lower target value) before (OffersValue before entries)
      fun _ => False := by
  rw [lowerAssignment, builds_bind]
  refine (flowsTarget before entries flowing unbound targetNames).mono ?_ fun _ => id
  rintro pointer middle ⟨givesTarget, between, toMiddle, pointerOffered⟩
  rw [builds_bind]
  refine (flowsValue.behind unbound valueNames toMiddle givesTarget.locals_eq).mono ?_ fun _ => id
  rintro stored after ⟨givesValue, later, toAfter, storedOffered⟩
  rw [builds_bind, builds_perform, builds_pure]
  have performed := Carries.perform toAfter.flowing
    (.store (valueType program.ast value) stored pointer) ?_ rfl ?_
  · refine ⟨later, (toMiddle.trans toAfter).trans performed, fun temporary same => ?_⟩
    exact performed.offered temporary
      (toAfter.offered temporary (pointerOffered temporary same))
  · simp only [Ir.Operation.operands, List.forall_mem_cons]
    exact ⟨givesValue.below, givesTarget.below_later givesValue, by simp⟩
  · intro temporary operand
    rw [Ir.Operation.operands, List.mem_cons, List.mem_singleton] at operand
    rcases operand with same | same
    · exact storedOffered temporary same.symm
    · exact toAfter.offered temporary (pointerOffered temporary same.symm)

end Forms

/-- One typed expression is lowered using only what is offered. -/
theorem lowerKind_flows (coherent : program.Coherent) {kind : ExprKind} {type : Ty}
    (location : Location) (flowing : before.Flowing entries)
    (unbound : ∀ declaration ∈ program.declarations, before.local? declaration = none)
    (typed : program.ast.HasType kind type)
    (usable : ∀ declaration, kind = .name declaration →
      Usable program before entries declaration)
    (names : ∀ operand ∈ kind.operands,
      program.ast.Names (Usable program before entries) operand)
    (flows : ∀ operand ∈ kind.operands, FlowsExpr program lower operand)
    (flowsConstant : ∀ declaration initializer, kind = .name declaration →
      (program.ast.kindOf declaration).isConstant = true →
      (program.ast.kindOf declaration).initializer? = some initializer →
      FlowsExpr program lower initializer) :
    Builds (lowerKind program lower ⟨kind, type, location⟩) before (OffersValue before entries)
      fun _ => False := by
  cases kind with
  | bool | int | float | char =>
      rw [lowerKind, builds_pure]
      exact ⟨entries, .refl flowing, fun _ same => by cases same⟩
  | name declaration =>
      exact lowerName_flows flowing unbound coherent (usable declaration rfl)
        (fun initializer => flowsConstant declaration initializer rfl)
  | unary operator operand =>
      rw [lowerKind, builds_bind]
      refine (flows operand (by simp [ExprKind.operands]) before entries flowing unbound
        (names operand (by simp [ExprKind.operands]))).mono ?_ fun _ => id
      rintro value middle ⟨gives, between, toMiddle, offered⟩
      refine emit_flows toMiddle ?_ (by cases operator <;> rfl) ?_
      · cases operator <;>
          simpa [UnaryOperator.operation, Ir.Operation.operands, Ir.Value.Below] using gives.below
      · intro temporary member
        exact offered temporary (operator.eq_of_mem_operands member).symm
  | binary operator left right =>
      rw [ExprKind.operands, List.forall_mem_cons, List.forall_mem_singleton] at names flows
      by_cases isLogical : operator.isLogical = true
      · cases operator <;> cases isLogical
        · exact lowerLogical_flows flowing unbound false flows.1 flows.2 names.1 names.2
        · exact lowerLogical_flows flowing unbound true flows.1 flows.2 names.1 names.2
      · have stands := BinaryOperator.operation?_of_typed typed (by simpa using isLogical)
        have builds := lowerBinary_flows flowing unbound flows.1 flows.2 names.1 names.2 stands
        cases operator <;> first | exact builds | exact absurd rfl isLogical
  | call callee arguments =>
      rw [ExprKind.operands, List.forall_mem_cons] at names flows
      rw [lowerKind, builds_bind]
      refine (flows.1 before entries flowing unbound names.1).mono ?_ fun _ => id
      rintro function middle ⟨gives, between, toMiddle, calleeOffered⟩
      rw [builds_bind]
      have unbound' : ∀ declaration ∈ program.declarations,
          middle.local? declaration = none := by
        intro declaration atTop
        rw [Builder.local?, gives.locals_eq]
        exact unbound declaration atTop
      refine (lowerArguments_flows toMiddle.flowing unbound' flows.2 fun argument member =>
        (names.2 argument member).mono fun _ usable =>
          usable.carry toMiddle gives.locals_eq).mono ?_ fun _ => id
      rintro values after ⟨givesArguments, later, toAfter, offered⟩
      refine emit_flows (toMiddle.trans toAfter) ?_ rfl ?_
      · rw [Ir.Operation.operands, List.forall_mem_cons]
        exact ⟨gives.below.mono givesArguments.grows.temporaries_le, givesArguments.below⟩
      · intro temporary operand
        rw [Ir.Operation.operands, List.mem_cons] at operand
        rcases operand with same | member
        · exact toAfter.offered temporary (calleeOffered temporary same.symm)
        · exact offered temporary member
  | index => cases typed
  | cast operand =>
      exact (flows operand (by simp [ExprKind.operands]) before entries flowing unbound
        (names operand (by simp [ExprKind.operands]))).mono (fun _ _ both => both.2) fun _ => id
  | assign target value =>
      rw [ExprKind.operands, List.forall_mem_cons, List.forall_mem_singleton] at names flows
      exact lowerAssignment_flows flowing unbound flows.1 flows.2 names.1 names.2
  | conditional guard whenTrue whenFalse =>
      rw [ExprKind.operands, List.forall_mem_cons, List.forall_mem_cons,
        List.forall_mem_singleton] at names flows
      exact lowerConditional_flows flowing unbound _ flows.1 flows.2.1 flows.2.2 names.1 names.2.1
        names.2.2
  | convert conversion operand =>
      rw [lowerKind, builds_bind]
      refine (flows operand (by simp [ExprKind.operands]) before entries flowing unbound
        (names operand (by simp [ExprKind.operands]))).mono ?_ fun _ => id
      rintro value middle ⟨gives, between, toMiddle, offered⟩
      refine emit_flows toMiddle ?_ (by cases conversion <;> rfl) ?_
      · cases conversion <;>
          simpa [Conversion.operation, Ir.Operation.operands, Ir.Value.Below] using gives.below
      · intro temporary member
        exact offered temporary (conversion.eq_of_mem_operands member).symm

/-- Expressions are lowered using only what is offered. -/
theorem lowerExpr_flows (coherent : program.Coherent) (id : ExprId) :
    FlowsExpr program (lowerExpr program) id := by
  intro before entries flowing unbound names
  refine lowerExprWithin_induction (FlowsExpr program) coherent.sound ?_
    (Nat.lt_succ_of_lt names.index_lt) names.index_lt before entries flowing unbound names
  intro fuel id enough bound lowers lowersConstant before entries flowing unbound names
  have gives := lowerExprWithin_builds coherent enough before flowing.valid
    (names.mono fun _ usable => usable.available)
  have flows := lowerKind_flows coherent (program.ast.expr id).location flowing unbound
    (coherent.sound.expr_typed id bound)
    (fun declaration named => names.visible_of_name named)
    (fun operand member => names.operand member) lowers lowersConstant
  exact (gives.and flows).mono (fun _ _ both => both) fun _ never => never.1

end Minilang.Lowering
