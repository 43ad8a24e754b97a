import Minilang.Proofs.Analysis.DefiniteAssignment
import Minilang.Proofs.Lowering.ExpressionInitialization
import Minilang.Proofs.Lowering.Numbering
import Minilang.Proofs.Lowering.StatementAddresses
import Minilang.Proofs.Lowering.StatementFlow

/-!
# Statements that write before they read

Statements that name variables only where they are written on every way read room for objects only where it
is written. As the room of one variable is followed through a function, either it is written already, and
nothing can change that, or no name stands for it and it is left alone.
-/

namespace Minilang

/-- Names in sound expressions are typed. -/
theorem Ast.Names.typed {ast : Ast} (sound : ast.Sound) {visible : DeclId → Prop} {id : ExprId}
    (names : ast.Names visible id) :
    ast.Names (fun declaration => visible declaration ∧
      ∃ type, ast.HasType (.name declaration) type) id := by
  induction names with
  | expr bound visible _ induction =>
      exact .expr bound (fun declaration named =>
        ⟨visible declaration named, _, named ▸ sound.expr_typed _ bound⟩) induction

/-- What is not the result of an instruction in a block is room, if it is there. -/
theorem Builder.Ranks.of_spares {builder : Builder} {slot : Nat} {rank : Bool}
    (ranks : builder.Ranks (.temp slot) rank) (spares : builder.Spares slot)
    (numbered : builder.Numbered) : rank = true := by
  have isRoom {operation : Ir.Operation} (contains : builder.Contains ⟨some slot, operation⟩) :
      ∃ type, operation = .alloca type := by
    rcases contains with room | ⟨index, block, found, member⟩
    · exact numbered.allocas_eq _ room
    · exact absurd rfl (spares index block found _ member)
  cases ranks with
  | room => rfl
  | phi _ contains =>
      obtain ⟨_, isAlloca⟩ := isRoom contains
      cases isAlloca
  | result _ contains _ notRoom =>
      obtain ⟨type, isAlloca⟩ := isRoom contains
      exact absurd isAlloca (notRoom type)

namespace Lowering

open Builder (Aside Grows)

/-- Whether a flow tells that the room of a temporary is written. -/
def Promises (flow : Flow) (slot : Nat) (builder : Builder) : Prop :=
  match flow with
  | .unreachable => True
  | .reachable names => ∃ declaration ∈ names, builder.local? declaration = some (.temp slot)

/-- Whether the room of a temporary is written where a flow tells that it is. -/
def Tracks (flow : Flow) (slot : Nat) (builder : Builder) (given : Nat → Prop) : Prop :=
  Promises flow slot builder → builder.Written slot given

/-- Whether the blocks that jumps lead to are given the room written only if it is. -/
def Trusts (loop : Option LoopTargets) (slot : Nat) (builder : Builder) (given : Nat → Prop) : Prop :=
  ∀ targets, loop = some targets →
    (given targets.continueBlock → builder.Written slot given) ∧
      (given targets.breakBlock → builder.Written slot given)

/-- Whether the room of a temporary stays guarded between two states, and is written behind if it was
written before or if a flow tells that it is. -/
def Preserves (loop : Option LoopTargets) (slot : Nat) (flow flow' : Flow) (before after : Builder) :
    Prop :=
  ∀ given, before.Guards slot given → Trusts loop slot before given → Tracks flow slot before given →
    ∃ later, (∀ index < before.blocks.size, later index = given index) ∧ after.Guards slot later ∧
      (before.Written slot given → after.Written slot later) ∧ Tracks flow' slot after later

/-- What holds where the room of a temporary is guarded, but not written. -/
structure Unwritten (loop : Option LoopTargets) (slot : Nat) (flow : Flow) (before : Builder)
    (given : Nat → Prop) : Prop where
  guards : before.Guards slot given
  unwritten : ¬before.Written slot given
  unknown : ¬Promises flow slot before
  targets : ∀ targets, loop = some targets →
    ¬given targets.continueBlock ∧ ¬given targets.breakBlock

/-- Parts of statements in which room is written before it is read. -/
structure InitializesStmt (program : Program) (scope : FunctionScope) (first last : Nat)
    (loop : Option LoopTargets) (slot : Nat) (flow flow' : Flow) (step : Build Unit) : Prop where
  /-- The statements are lowered. -/
  lowers : LowersStmtRanked program scope first last loop step
  /-- The room stays guarded if it is room. -/
  preserves : ∀ before : Builder, Ranked program before → before.Numbered → Binds scope first before →
    Reaches loop before →
    Builds step before (fun _ after => after.Spares slot → Preserves loop slot flow flow' before after)
      fun _ => True

variable {program : Program} {scope : FunctionScope} {first second count next slot : Nat}
  {before middle after : Builder} {flow flow' : Flow} {loop : Option LoopTargets} {given : Nat → Prop}

/-- What a flow tells behind, it has told before if all its names had values. -/
theorem Promises.of_grows (promises : Promises flow slot after) (grows : before.Grows after)
    (binds : Binds scope count before) (within : flow.Within (scope.Declares count)) :
    Promises flow slot before := by
  cases flow with
  | unreachable => trivial
  | reachable names =>
      obtain ⟨declaration, member, found⟩ := promises
      obtain ⟨value, had⟩ :=
        Option.isSome_iff_exists.1 ((binds declaration).2 (within declaration member))
      obtain rfl : value = .temp slot := Option.some.inj ((grows.local_kept had).symm.trans found)
      exact ⟨declaration, member, had⟩

theorem Promises.of_locals_eq (promises : Promises flow slot after) (locals_eq : after.locals = before.locals) :
    Promises flow slot before := by
  cases flow with
  | unreachable => trivial
  | reachable names =>
      obtain ⟨declaration, member, found⟩ := promises
      exact ⟨declaration, member, by rwa [Builder.local?, locals_eq] at found⟩

/-- The declarations of both flows are those where the ways meet. -/
theorem Promises.of_join {other : Flow} (promises : Promises (flow.join other) slot after) :
    Promises flow slot after ∧ Promises other slot after := by
  cases flow with
  | unreachable => exact ⟨trivial, promises⟩
  | reachable names =>
      cases other with
      | unreachable => exact ⟨promises, trivial⟩
      | reachable names' =>
          obtain ⟨declaration, member, found⟩ := promises
          obtain ⟨inFirst, inSecond⟩ := List.mem_filter.1 member
          exact ⟨⟨declaration, inFirst, found⟩, declaration, by simpa using inSecond, found⟩

/-- Behind a declaration a flow tells of the declared name and of those before. -/
theorem Promises.of_declare {id : DeclId} (promises : Promises (flow.declare id) slot after) :
    after.local? id = some (.temp slot) ∨ Promises flow slot after := by
  cases flow with
  | unreachable => exact .inr trivial
  | reachable names =>
      obtain ⟨declaration, member, found⟩ := promises
      rcases List.mem_cons.1 member with rfl | member
      · exact .inl found
      · exact .inr ⟨declaration, member, found⟩

/-- What is built aside gives no new block the room written. -/
theorem Unwritten.aside (unwritten : Unwritten loop slot flow before given)
    (aside : Aside slot before after) :
    ∃ later, (∀ index < before.blocks.size, later index = given index) ∧ after.Guards slot later ∧
      ∀ index, before.blocks.size ≤ index → index < after.blocks.size → ¬later index :=
  ⟨_, fun _ bound => propext (and_iff_left (.inl bound)), aside.guards unwritten.guards,
    fun _ new bound isGiven =>
      (not_or.2 ⟨Nat.not_lt_of_le new, Nat.not_le_of_lt bound⟩) isGiven.2⟩

/-- Jumps lead to blocks that are not given the room written as long as they keep what they are given. -/
theorem Unwritten.trusts (unwritten : Unwritten loop slot flow before given)
    (reaches : Reaches loop before) {later : Nat → Prop}
    (kept : ∀ index < before.blocks.size, later index = given index) :
    Trusts loop slot after later := by
  intro targets within
  obtain ⟨continue_lt, break_lt⟩ := reaches targets within
  obtain ⟨continues, breaks⟩ := unwritten.targets targets within
  rw [kept _ continue_lt, kept _ break_lt]
  exact ⟨fun isGiven => absurd isGiven continues, fun isGiven => absurd isGiven breaks⟩

/-- Where the room is written it stays so, thus only the other case is left. -/
theorem InitializesStmt.of_unwritten {step : Build Unit} {last : Nat}
    (lowers : LowersStmtRanked program scope first last loop step)
    (preserves : ∀ before : Builder, Ranked program before → before.Numbered →
      Binds scope first before → Reaches loop before →
      Builds step before (fun _ after => after.Spares slot → before.Spares slot →
        ∀ given, Unwritten loop slot flow before given →
          ∃ later, (∀ index < before.blocks.size, later index = given index) ∧
            after.Guards slot later ∧ Tracks flow' slot after later) fun _ => True) :
    InitializesStmt program scope first last loop slot flow flow' step := by
  refine ⟨lowers, fun before ranked numbered binds reaches => ?_⟩
  refine ((lowers.builds ranked binds reaches).and
    (preserves before ranked numbered binds reaches)).mono ?_ fun _ _ => trivial
  rintro _ after ⟨⟨settles, _⟩, unwritten⟩ spares given guards trusts tracks
  by_cases written : before.Written slot given
  · obtain ⟨afterGuards, afterWritten⟩ := settles.grows.guards guards written
    exact ⟨given, fun _ _ => rfl, afterGuards, fun _ => afterWritten, fun _ => afterWritten⟩
  · have beforeSpares := spares.of_includes (settles.grows.includes ranked.valid.wellFormed)
    obtain ⟨later, kept, afterGuards, afterTracks⟩ := unwritten spares beforeSpares given
      ⟨guards, written, fun promises => written (tracks promises), fun targets within =>
        ⟨fun isGiven => written ((trusts targets within).1 isGiven),
          fun isGiven => written ((trusts targets within).2 isGiven)⟩⟩
    exact ⟨later, kept, afterGuards, fun isWritten => absurd isWritten written, afterTracks⟩

theorem InitializesStmt.builds {step : Build Unit} {last : Nat}
    (initializes : InitializesStmt program scope first last loop slot flow flow' step)
    (ranked : Ranked program before) (numbered : before.Numbered) (binds : Binds scope first before)
    (reaches : Reaches loop before) :
    Builds step before (fun _ after => (Settles scope last before after ∧ Ranked program after) ∧
      (after.Spares slot → Preserves loop slot flow flow' before after)) fun _ => True :=
  ((initializes.lowers.builds ranked binds reaches).and
    (initializes.preserves before ranked numbered binds reaches)).mono (fun _ _ both => both)
    fun _ _ => trivial

/-- What it takes to follow the room of variables in a function. -/
structure Followable (program : Program) (scope : FunctionScope) (next : Nat) : Prop
    extends Separate program scope next where
  /-- Declared types are plain. -/
  plain : program.ast.DeclaresPlain

theorem Followable.rankable (followable : Followable program scope next) :
    Rankable program scope :=
  ⟨followable.toLowerable, followable.plain⟩

section Expressions

variable (followable : Followable program scope next) (ranked : Ranked program before)
  (binds : Binds scope count before) (count_le : count ≤ next) {id : ExprId}
  (names : program.ast.Names (scope.Visible count) id)

include followable ranked binds count_le names

/-- The names in an expression do not stand for room that no flow tells to be written, if they stand only
for what is written. -/
theorem Followable.names_apart (numbered : before.Numbered) (spares : before.Spares slot)
    (unknown : ¬Promises flow slot before) (uses : program.usesWritten flow id = true) :
    program.ast.Names (Apart program before slot) id := by
  cases flow with
  | unreachable => exact absurd trivial unknown
  | reachable written =>
      have sound := followable.coherent.sound
      refine (names.typed sound).of_namesWithin sound (Nat.lt_succ_of_lt names.index_lt) ?_
      rintro declaration member ⟨visible, type, named⟩
      refine ⟨binds.available followable.globals_eq declaration visible, fun found => ?_⟩
      have isWritten := List.all_eq_true.1 uses declaration member
      simp only [decide_eq_true_eq] at isWritten
      rcases isWritten with notVariable | atTop | isWritten
      · have isRoom := (ranked.local_ranks declaration _ type found named).of_spares spares numbered
        cases named with
        | «variable» isVariable => rw [notVariable] at isVariable; cases isVariable
        | name _ declared =>
            rw [Ty.isReference_of_isPlain (followable.plain declaration type declared)] at isRoom
            cases isRoom
      · rw [followable.unbound binds count_le atTop] at found
        cases found
      · exact unknown ⟨declaration, isWritten, found⟩

/-- An expression is lowered, and it leaves room alone that its names are apart from. -/
theorem Followable.expression (slot : Nat) :
    Builds (lowerExpr program id) before (fun value after =>
      (GivesValue before value after ∧ GivesRanked program (program.ast.typeOf id) value after) ∧
        (after.Spares slot → program.ast.Names (Apart program before slot) id →
          Bypasses slot before value after)) fun _ => True := by
  have lowered := followable.rankable.expression ranked binds names
  by_cases apart : program.ast.Names (Apart program before slot) id
  · have unbound : ∀ declaration ∈ program.declarations, before.local? declaration = none :=
      fun _ atTop => followable.unbound binds count_le atTop
    have bypasses := (lowerExpr_bypasses followable.coherent slot names.index_lt).bypasses before
      ranked.valid unbound apart
    exact (lowered.and bypasses).mono (fun _ _ both => ⟨both.1, fun spares _ => both.2 spares⟩)
      fun _ _ => trivial
  · exact lowered.mono (fun _ _ both => ⟨both, fun _ isApart => absurd isApart apart⟩)
      fun _ _ => trivial

end Expressions

section Forms

variable {body whenFalse : Build Unit} {guard : ExprId} {bodyFlow falseFlow : Flow}
  (followable : Followable program scope next) (first_le : first ≤ next)
  (names : program.ast.Names (scope.Visible first) guard)
  (guard_type : program.ast.typeOf guard = .bool)
  (uses : program.usesWritten flow guard = true) (within : flow.Within (scope.Declares first))

include followable first_le names guard_type uses within

theorem lowerWhen_initializes
    (bodyInitializes :
      InitializesStmt program scope first count loop slot flow bodyFlow body) :
    InitializesStmt program scope first count loop slot flow flow
      (lowerWhen program guard body) := by
  have lowers := lowerWhen_ranked followable.rankable names guard_type bodyInitializes.lowers
  refine .of_unwritten lowers fun before ranked numbered binds reaches => ?_
  rw [builds_lowerWhen]
  refine (followable.expression ranked binds first_le names slot).mono ?_ fun _ => id
  rintro condition split ⟨⟨gives, rankedGuard⟩, bypasses⟩
  rw [guard_type] at rankedGuard
  have splitRanked := rankedGuard.ranked.splitTwo rankedGuard.ranks .whenThen .whenEnd
  have started := gives.grows.splitTwo rankedGuard.ranked.valid .whenThen .whenEnd gives.below
  have awaits := Builder.Awaits.splitTwo rankedGuard.ranked.valid .whenThen .whenEnd condition
  have startedNumbered := started.numbered ranked.valid.wellFormed numbered
  refine (bodyInitializes.builds splitRanked startedNumbered
    (binds.of_locals_eq (by simp [gives.locals_eq])) (reaches.of_grows started)).mono ?_ fun _ => id
  rintro _ joined ⟨⟨settles, joinedRanked⟩, preserves⟩ spares beforeSpares given unwritten
  have joinedSpares := spares.of_includes (.leave joinedRanked.valid.wellFormed _ _)
  have splitSpares := joinedSpares.of_includes
    ((Grows.refl.splitTwo rankedGuard.ranked.valid .whenThen .whenEnd gives.below).trans
      settles.grows |>.includes rankedGuard.ranked.valid.wellFormed)
  have apart := followable.names_apart ranked binds first_le names numbered beforeSpares
    unwritten.unknown uses
  have aside := (bypasses splitSpares apart).aside.trans
    (.splitTwo split slot .whenThen .whenEnd condition)
  obtain ⟨middle, middleKept, guards, fresh⟩ := unwritten.aside aside
  have unknown : ¬Promises flow slot (split.splitTwo .whenThen .whenEnd condition) := fun promises =>
    unwritten.unknown (promises.of_locals_eq (by simp [gives.locals_eq]))
  obtain ⟨later, kept, laterGuards, -, -⟩ := preserves joinedSpares middle guards
    (unwritten.trusts reaches middleKept) fun promises => absurd promises unknown
  have new : before.blocks.size ≤ split.blocks.size + 1 := Nat.le_succ_of_le gives.grows.size_le
  have notGiven : ¬later (split.blocks.size + 1) := by
    rw [kept _ awaits.fresh.lt_size]
    exact fresh _ new awaits.fresh.lt_size
  refine ⟨later, fun index bound => ?_, laterGuards.leave fun isGiven => absurd isGiven notGiven,
    fun promises => ?_⟩
  · rw [kept index (bound.trans_le started.size_le), middleKept index bound]
  · exact absurd ((promises.of_locals_eq (joined.leave_locals _ _)).of_grows
      (started.trans settles.grows) binds within) unwritten.unknown

theorem lowerIf_initializes (trueInitializes :
      InitializesStmt program scope first second loop slot flow bodyFlow body)
    (falseInitializes :
      InitializesStmt program scope second count loop slot flow falseFlow whenFalse)
    (trueWithin : bodyFlow.Within (scope.Declares second)) :
    InitializesStmt program scope first count loop slot flow (bodyFlow.join falseFlow)
      (lowerIf program guard body whenFalse) := by
  have lowers := lowerIf_ranked followable.rankable names guard_type trueInitializes.lowers
    falseInitializes.lowers
  refine .of_unwritten lowers fun before ranked numbered binds reaches => ?_
  rw [builds_lowerIf]
  refine (followable.expression ranked binds first_le names slot).mono ?_ fun _ => id
  rintro condition split ⟨⟨gives, rankedGuard⟩, bypasses⟩
  rw [guard_type] at rankedGuard
  have splitValid := rankedGuard.ranked.valid
  have startedRanked := rankedGuard.ranked.splitThree rankedGuard.ranks .ifThen .ifElse .ifEnd
  have splitGrows := Grows.refl.splitThree splitValid .ifThen .ifElse .ifEnd gives.below
  have started := gives.grows.trans splitGrows
  have startedNumbered := started.numbered ranked.valid.wellFormed numbered
  obtain ⟨awaitsElse, awaitsEnd⟩ := Builder.Awaits.splitThree splitValid .ifThen .ifElse .ifEnd
    condition
  have startedElse_lt := awaitsElse.fresh.lt_size
  have startedEnd_lt := awaitsEnd.fresh.lt_size
  refine (trueInitializes.builds startedRanked startedNumbered
    (binds.of_locals_eq (by simp [gives.locals_eq])) (reaches.of_grows started)).mono ?_ fun _ => id
  rintro _ turned ⟨⟨settlesTrue, turnedRanked⟩, preservesTrue⟩
  replace awaitsElse := awaitsElse.of_grows settlesTrue.grows
  replace awaitsEnd := awaitsEnd.of_grows settlesTrue.grows
  have turnedGrows := (started.trans settlesTrue.grows).leave awaitsEnd.fresh.lt_size awaitsElse
    (Nat.le_succ_of_le gives.grows.size_le)
  have elseAwaitsEnd := awaitsEnd.leave (split.blocks.size + 2)
    (Nat.ne_of_lt (Nat.lt_succ_self (split.blocks.size + 1)))
  refine (falseInitializes.builds (turnedRanked.leave (split.blocks.size + 2) awaitsElse)
    (turnedGrows.numbered ranked.valid.wellFormed numbered)
    (settlesTrue.binds.of_locals_eq (turned.leave_locals _ _))
    (reaches.of_grows turnedGrows)).mono ?_ fun _ => id
  rintro _ joined ⟨⟨settlesFalse, joinedRanked⟩, preservesFalse⟩ spares beforeSpares given unwritten
  have joinedSpares := spares.of_includes (.leave joinedRanked.valid.wellFormed _ _)
  have turnedSpares := joinedSpares.of_includes ((Builder.Includes.leave
    turnedRanked.valid.wellFormed _ _).trans (settlesFalse.grows.includes
      (turnedRanked.leave (split.blocks.size + 2) awaitsElse).valid.wellFormed))
  have splitSpares := turnedSpares.of_includes
    ((splitGrows.trans settlesTrue.grows).includes splitValid.wellFormed)
  have apart := followable.names_apart ranked binds first_le names numbered beforeSpares
    unwritten.unknown uses
  -- the new blocks of the branches are given nothing, the one behind them everything
  obtain ⟨split₁, splitKept, splitGuards, -⟩ := unwritten.aside (bypasses splitSpares apart).aside
  obtain ⟨given₂, startedGuards, kept₂, endGiven⟩ :=
    splitGuards.splitThree splitValid .ifThen .ifElse .ifEnd condition
  have new : before.blocks.size ≤ split.blocks.size := gives.grows.size_le
  have startedKept : ∀ index < before.blocks.size, given₂ index = given index := fun index bound =>
    (kept₂ index (bound.trans_le new)).trans (splitKept index bound)
  have unknown {later : Builder} (grows : before.Grows later) : ¬Promises flow slot later :=
    fun promises => unwritten.unknown (promises.of_grows grows binds within)
  obtain ⟨given₃, kept₃, turnedGuards, -, trueTracks⟩ := preservesTrue turnedSpares given₂
    startedGuards (unwritten.trusts reaches startedKept) fun promises => absurd promises (unknown started)
  have turnedKept : ∀ index < before.blocks.size, given₃ index = given index := fun index bound =>
    (kept₃ index (bound.trans_le started.size_le)).trans (startedKept index bound)
  -- the block behind is given the room written only if both branches write it
  set given₄ :=
    Builder.restrict given₃ (split.blocks.size + 2) (turned.Written slot given₃) with given₄_eq
  have elseGuards : (turned.leave (split.blocks.size + 2) (split.blocks.size + 1)).Guards slot given₄ :=
    (turnedGuards.narrow awaitsEnd.fresh _).leave
      fun isGiven => (isGiven.2 rfl).restrict awaitsEnd.elsewhere _
  have elseKept : ∀ index < before.blocks.size, given₄ index = given index := by
    intro index bound
    rw [given₄_eq, Builder.restrict_of_ne (by omega), turnedKept index bound]
  obtain ⟨given₅, kept₅, joinedGuards, -, falseTracks⟩ := preservesFalse joinedSpares given₄
    elseGuards (unwritten.trusts reaches elseKept) fun promises => absurd promises (unknown turnedGrows)
  have joinedAwaits := elseAwaitsEnd.of_grows settlesFalse.grows
  refine ⟨Builder.restrict given₅ (split.blocks.size + 2) (joined.Written slot given₅), fun index bound => ?_,
    (joinedGuards.narrow joinedAwaits.fresh _).leave
      fun isGiven => (isGiven.2 rfl).restrict joinedAwaits.elsewhere _, fun promises => ?_⟩
  · rw [Builder.restrict_of_ne (by omega), kept₅ index (bound.trans_le turnedGrows.size_le),
      elseKept index bound]
  · obtain ⟨trueKnows, falseKnows⟩ := (promises.of_locals_eq (joined.leave_locals _ _)).of_join
    have turnedWritten := trueTracks ((trueKnows.of_grows settlesFalse.grows
      (settlesTrue.binds.of_locals_eq (turned.leave_locals _ _)) trueWithin).of_locals_eq
        (turned.leave_locals _ _))
    rintro _ ⟨rfl⟩
    refine .inl ⟨?_, fun _ => falseTracks falseKnows⟩
    rw [kept₅ _ elseAwaitsEnd.fresh.lt_size, given₄_eq]
    refine ⟨?_, fun _ => turnedWritten⟩
    rw [kept₃ _ startedEnd_lt]
    exact endGiven

theorem lowerWhile_initializes {body : LoopTargets → Build Unit}
    (bodyInitializes : ∀ targets,
      InitializesStmt program scope first count (some targets) slot flow bodyFlow (body targets)) :
    InitializesStmt program scope first count loop slot flow flow
      (lowerWhile program guard body) := by
  have lowers : LowersStmtRanked program scope first count loop (lowerWhile program guard body) :=
    lowerWhile_ranked followable.rankable names guard_type fun targets =>
      (bodyInitializes targets).lowers
  refine .of_unwritten lowers fun before ranked numbered binds reaches => ?_
  rw [builds_lowerWhile]
  obtain ⟨awaitsBody, awaitsEnd⟩ := Builder.Awaits.startLoop ranked.valid
  have head_lt : before.blocks.size < before.startLoop.blocks.size :=
    Nat.lt_of_succ_lt awaitsBody.fresh.lt_size
  refine (followable.expression ranked.startLoop (binds.of_locals_eq before.startLoop_locals)
    first_le names slot).mono ?_ fun _ => id
  rintro condition tested ⟨⟨gives, rankedGuard⟩, bypasses⟩
  rw [guard_type] at rankedGuard
  have testedValid := rankedGuard.ranked.valid
  have testedGrows : before.Grows tested := (Grows.refl.startLoop ranked.valid).trans gives.grows
  replace awaitsBody := awaitsBody.of_grows gives.grows
  replace awaitsEnd := awaitsEnd.of_grows gives.grows
  have targets : ∀ target ∈ (Ir.Terminator.condBranch condition (before.blocks.size + 1)
      (before.blocks.size + 2)).successors,
      before.blocks.size ≤ target ∧ target < tested.blocks.size := by
    rw [Ir.Terminator.successors, List.forall_mem_cons, List.forall_mem_singleton]
    exact ⟨⟨Nat.le_succ _, awaitsBody.fresh.lt_size⟩, Nat.le_add_right _ 2, awaitsEnd.fresh.lt_size⟩
  have closedGrows := (Grows.refl : tested.Grows tested).endWith _
    (by simpa [Ir.Terminator.operands] using gives.below) fun target member => (targets target member).2
  have bodyAwaits := awaitsBody.endWith
    (.condBranch condition (before.blocks.size + 1) (before.blocks.size + 2))
  have endAwaits := (awaitsEnd.endWith
    (.condBranch condition (before.blocks.size + 1) (before.blocks.size + 2))).goTo
    (Nat.ne_of_lt (Nat.lt_succ_self (before.blocks.size + 1)))
  have closedRanked := rankedGuard.ranked.endWith
    (.condBranch rankedGuard.ranks (before.blocks.size + 1) (before.blocks.size + 2))
  have bodyRanked := closedRanked.onward (.goTo _ _) rfl (closedRanked.ranked.goTo bodyAwaits)
  have started := (testedGrows.trans closedGrows).enter bodyAwaits (Nat.le_succ _)
  have end_lt := endAwaits.fresh.lt_size
  refine ((bodyInitializes _).builds bodyRanked
    (started.numbered ranked.valid.wellFormed numbered)
    (binds.of_locals_eq (by simp [gives.locals_eq])) ?_).mono ?_ fun _ => id
  · rintro _ ⟨rfl⟩
    exact ⟨Nat.lt_of_succ_lt (Nat.lt_of_succ_lt end_lt), end_lt⟩
  rintro _ turned ⟨⟨settles, turnedRanked⟩, preserves⟩ spares beforeSpares given unwritten
  have turnedSpares := spares.of_includes (.leave turnedRanked.valid.wellFormed _ _)
  have startedSpares := turnedSpares.of_includes
    (settles.grows.includes bodyRanked.valid.wellFormed)
  have testedSpares : tested.Spares slot :=
    startedSpares.of_includes ((closedGrows.includes testedValid.wellFormed).trans (.goTo _ _))
  have loopSpares : before.startLoop.Spares slot :=
    testedSpares.of_includes (gives.grows.includes ranked.startLoop.valid.wellFormed)
  have unknown : ¬Promises flow slot before.startLoop := fun promises =>
    unwritten.unknown (promises.of_locals_eq before.startLoop_locals)
  have apart := followable.names_apart ranked.startLoop
    (binds.of_locals_eq before.startLoop_locals) first_le names
    ((Grows.refl.startLoop ranked.valid).numbered ranked.valid.wellFormed numbered) loopSpares
    unknown uses
  have aside : Aside slot before ((tested.endWith (.condBranch condition (before.blocks.size + 1)
      (before.blocks.size + 2))).goTo (before.blocks.size + 1)) :=
    .keep (((Aside.startLoop before slot).trans (bypasses testedSpares apart).aside).endWith
      targets) rfl
  obtain ⟨middle, middleKept, guards, fresh⟩ := unwritten.aside aside
  have head_fresh := fresh before.blocks.size le_rfl (by omega)
  have bodyTrusts : Trusts (some ⟨before.blocks.size, before.blocks.size + 2⟩) slot
      ((tested.endWith (.condBranch condition (before.blocks.size + 1)
        (before.blocks.size + 2))).goTo (before.blocks.size + 1)) middle := by
    rintro _ ⟨rfl⟩
    exact ⟨fun isGiven => absurd isGiven head_fresh,
      fun isGiven => absurd isGiven (fresh _ (Nat.le_add_right _ 2) end_lt)⟩
  obtain ⟨later, kept, laterGuards, -, -⟩ := preserves turnedSpares middle guards bodyTrusts
    fun promises => absurd (promises.of_locals_eq (by simp [gives.locals_eq])) unwritten.unknown
  have notGiven : ¬later before.blocks.size := by
    rw [kept _ (by omega)]
    exact head_fresh
  refine ⟨later, fun index bound => ?_, laterGuards.leave fun isGiven => absurd isGiven notGiven,
    fun promises => ?_⟩
  · rw [kept index (bound.trans_le started.size_le), middleKept index bound]
  · exact absurd ((promises.of_locals_eq (turned.leave_locals _ _)).of_grows
      (started.trans settles.grows) binds within) unwritten.unknown

end Forms

/-- A jump leads to a block that is given the room written only if it is. -/
theorem lowerJump_initializes {target : LoopTargets → Nat} {location : Location}
    {error : SemanticError}
    (isTarget : ∀ targets, target targets = targets.continueBlock ∨
      target targets = targets.breakBlock)
    (lowers : LowersStmtRanked program scope count count loop (lowerJump loop target location error)) :
    InitializesStmt program scope count count loop slot flow .unreachable
      (lowerJump loop target location error) := by
  refine .of_unwritten lowers fun before _ _ _ _ => ?_
  cases loop with
  | none => trivial
  | some targets =>
      rw [lowerJump, builds_terminate]
      intro _ _ given unwritten
      have notGiven : ¬given (target targets) := by
        obtain ⟨continues, breaks⟩ := unwritten.targets targets rfl
        rcases isTarget targets with same | same <;> rwa [same]
      refine ⟨given, fun _ _ => rfl, unwritten.guards.endWith ?_, fun _ _ same => by cases same⟩
      rw [Ir.Terminator.successors, List.forall_mem_singleton]
      exact fun isGiven => absurd isGiven notGiven

section Values

variable {value : ExprId} (followable : Followable program scope next) (first_le : first ≤ next)
  (names : program.ast.Names (scope.Visible first) value)
  (uses : program.usesWritten flow value = true)

include followable first_le names uses

/-- A value is returned behind the expression that it comes from. -/
theorem lowerReturn_initializes {result : Ir.ValueType}
    (lowers : LowersStmtRanked program scope first first loop (do
      let value ← lowerExpr program value
      terminate (.ret result value))) :
    InitializesStmt program scope first first loop slot flow .unreachable (do
      let value ← lowerExpr program value
      terminate (.ret result value)) := by
  refine .of_unwritten lowers fun before ranked numbered binds _ => ?_
  rw [builds_bind]
  refine (followable.expression ranked binds first_le names slot).mono ?_ fun _ => id
  rintro returned after ⟨⟨gives, rankedValue⟩, bypasses⟩
  rw [builds_terminate]
  intro spares beforeSpares given unwritten
  have valid := rankedValue.ranked.valid
  have grows : after.Grows (after.endWith (.ret result returned)) :=
    Grows.refl.endWith _ (by simpa [Ir.Terminator.operands] using gives.below)
      (by simp [Ir.Terminator.successors])
  have afterSpares := spares.of_includes (grows.includes valid.wellFormed)
  have apart := followable.names_apart ranked binds first_le names numbered beforeSpares
    unwritten.unknown uses
  obtain ⟨later, kept, guards, -⟩ := unwritten.aside (bypasses afterSpares apart).aside
  exact ⟨later, kept, guards.endWith (List.forall_mem_nil _), fun _ _ same => by cases same⟩

/-- An expression alone changes nothing for the names there are. -/
theorem lowerDiscarded_initializes
    (lowers : LowersStmtRanked program scope first first loop (do
      let _ ← lowerExpr program value)) :
    InitializesStmt program scope first first loop slot flow flow (do
      let _ ← lowerExpr program value) := by
  refine .of_unwritten lowers fun before ranked numbered binds _ => ?_
  rw [builds_bind]
  refine (followable.expression ranked binds first_le names slot).mono ?_ fun _ => id
  rintro result after ⟨⟨gives, _⟩, bypasses⟩
  rw [builds_pure]
  intro spares beforeSpares given unwritten
  have apart := followable.names_apart ranked binds first_le names numbered beforeSpares
    unwritten.unknown uses
  obtain ⟨later, kept, guards, -⟩ := unwritten.aside (bypasses spares apart).aside
  exact ⟨later, kept, guards, fun promises =>
    absurd (promises.of_locals_eq gives.locals_eq) unwritten.unknown⟩

end Values

/-- A declared variable is written with its initializer, which does not name it. -/
theorem lowerLocal_initializes (followable : Followable program scope next)
    (behind : scope.function.index < count) (count_lt : count < next) {kind : ObjectKind} {type : Ty}
    {initializer : ExprId}
    (kind_eq : program.ast.kindOf ⟨count⟩ = .object kind type (some initializer))
    (names : program.ast.Names (scope.Visible (if kind = .var then count + 1 else count))
      initializer)
    (uses : program.usesWritten flow initializer = true) (within : flow.Within (scope.Declares count))
    (lowers : LowersStmtRanked program scope count (count + 1) loop (lowerLocal program ⟨count⟩)) :
    InitializesStmt program scope count (count + 1) loop slot flow (flow.declare ⟨count⟩)
      (lowerLocal program ⟨count⟩) := by
  refine .of_unwritten lowers fun before ranked numbered binds _ => ?_
  have unbound := binds.unbound (followable.not_parameter kind_eq)
  by_cases isVariable : kind = .var
  · rw [if_pos isVariable] at names
    rw [isVariable] at kind_eq
    rw [builds_lowerLocal_of_variable kind_eq]
    set room := (before.addAlloca (.ofTy type)).bind ⟨count⟩ (.temp before.temporaries)
    have roomBinds : Binds scope (count + 1) room :=
      (binds.of_locals_eq (before.addAlloca_locals (.ofTy type))).bind behind _
    have roomRanked : Ranked program room :=
      ranked.bindRoom unbound (by rw [kind_eq]; rfl) (.ofTy type)
    have roomGrows : before.Grows room :=
      .bind (.addAlloca _ .refl) unbound (Nat.lt_succ_self _)
    refine (followable.expression roomRanked roomBinds count_lt names slot).mono ?_ fun _ => id
    rintro value after ⟨⟨gives, rankedValue⟩, bypasses⟩ spares beforeSpares given unwritten
    have valid := rankedValue.ranked.valid
    have stores : after.Grows
        (after.perform (.store (.ofTy type) value (.temp before.temporaries))) := by
      refine Grows.refl.performed ?_
      rw [Ir.Operation.operands, List.forall_mem_cons, List.forall_mem_singleton]
      exact ⟨gives.below, Nat.lt_of_lt_of_le (Nat.lt_succ_self _) gives.grows.temporaries_le⟩
    have afterSpares := spares.of_includes (stores.includes valid.wellFormed)
    have roomSpares := afterSpares.of_includes (gives.grows.includes roomRanked.valid.wellFormed)
    have apart := followable.names_apart roomRanked roomBinds count_lt names
      (roomGrows.numbered ranked.valid.wellFormed numbered) roomSpares
      (fun promises => unwritten.unknown (promises.of_grows roomGrows binds within)) uses
    have roomAside : Aside slot before room := .keep .refl rfl
    have aside : Aside slot before
        (after.perform (.store (.ofTy type) value (.temp before.temporaries))) :=
      (roomAside.trans (bypasses afterSpares apart).aside).perform fun same => by cases same
    obtain ⟨later, kept, guards, -⟩ := unwritten.aside aside
    refine ⟨later, kept, guards, fun promises => ?_⟩
    rcases promises.of_declare with named | promises
    · have roomNamed : room.local? ⟨count⟩ = some (.temp before.temporaries) := by
        simp [room, Builder.local?, Builder.bind_locals]
      have stored := (gives.grows.trans stores).local_kept roomNamed
      cases named.symm.trans stored
      exact Builder.written_perform_store valid later (.ofTy type) value before.temporaries
    · exact absurd (promises.of_grows (roomGrows.trans (gives.grows.trans stores)) binds within)
        unwritten.unknown
  · rw [if_neg isVariable] at names
    rw [builds_lowerLocal_of_constant isVariable kind_eq]
    refine (followable.expression ranked binds count_lt.le names slot).mono ?_ fun _ => id
    rintro value after ⟨⟨gives, rankedValue⟩, bypasses⟩ spares beforeSpares given unwritten
    have apart := followable.names_apart ranked binds count_lt.le names numbered beforeSpares
      unwritten.unknown uses
    have bypassed := bypasses spares apart
    obtain ⟨later, kept, guards, -⟩ := unwritten.aside bypassed.aside
    refine ⟨later, kept, guards.of_blocks_eq rfl, fun promises => ?_⟩
    rcases promises.of_declare with named | promises
    · rw [Builder.local?, Builder.bind_locals, List.lookup_cons_self] at named
      exact absurd (Option.some.inj named) bypassed.value_ne
    · have grows : before.Grows (after.bind ⟨count⟩ value) := by
        refine .bind gives.grows ?_ gives.below
        rw [Builder.local?, gives.locals_eq]
        exact unbound
      exact absurd (promises.of_grows grows binds within) unwritten.unknown

/-- Statements one after another. -/
theorem InitializesStmt.cons {step steps : Build Unit} {last : Nat} {middleFlow : Flow}
    (lowers : LowersStmtRanked program scope first last loop (do step; steps))
    (head : InitializesStmt program scope first second loop slot flow middleFlow step)
    (tail : InitializesStmt program scope second last loop slot middleFlow flow' steps) :
    InitializesStmt program scope first last loop slot flow flow' (do step; steps) := by
  refine ⟨lowers, fun before ranked numbered binds reaches => ?_⟩
  rw [builds_bind]
  refine (head.builds ranked numbered binds reaches).mono ?_ fun _ => id
  rintro _ middle ⟨⟨settles, middleRanked⟩, headPreserves⟩
  refine (tail.builds middleRanked (settles.grows.numbered ranked.valid.wellFormed numbered)
    settles.binds (reaches.of_grows settles.grows)).mono ?_ fun _ => id
  rintro _ after ⟨⟨settlesRest, _⟩, tailPreserves⟩ spares given guards trusts tracks
  have middleSpares :=
    spares.of_includes (settlesRest.grows.includes middleRanked.valid.wellFormed)
  obtain ⟨between, keptHead, middleGuards, stays, middleTracks⟩ :=
    headPreserves middleSpares given guards trusts tracks
  have middleTrusts : Trusts loop slot middle between := by
    intro targets within
    obtain ⟨continue_lt, break_lt⟩ := reaches targets within
    rw [keptHead _ continue_lt, keptHead _ break_lt]
    exact ⟨fun isGiven => stays ((trusts targets within).1 isGiven),
      fun isGiven => stays ((trusts targets within).2 isGiven)⟩
  obtain ⟨later, keptTail, afterGuards, staysBehind, afterTracks⟩ :=
    tailPreserves spares between middleGuards middleTrusts middleTracks
  exact ⟨later, fun index bound => (keptTail index (bound.trans_le settles.grows.size_le)).trans
    (keptHead index bound), afterGuards, fun written => staysBehind (stays written), afterTracks⟩

/-- Every form of statement writes room before it reads it, if it names variables only where they are
written on every way. -/
theorem followsForms_initializesStmt (followable : Followable program scope next)
    (result : Ir.ValueType) (slot : Nat) :
    FollowsForms program scope.Visible result fun first statements last loop step =>
      scope.function.index < first → last ≤ next → ∀ fuel flow flow',
        flow.Within (scope.Declares first) →
        Program.flowSequence (program.flowStmtBy program.usesWritten fuel) flow statements =
          some flow' →
        flow'.Within (scope.Declares last) ∧
          InitializesStmt program scope first last loop slot flow flow' step := by
  have ranks := followsForms_lowersStmtRanked followable.rankable result
  have typed {id : StmtId} {stmt : Stmt} (is : program.ast.StmtIs id stmt) :
      program.ast.StmtTyped stmt :=
    is.2 ▸ followable.coherent.sound.stmt_typed id is.1
  have one {id : StmtId} {fuel : Nat} {flow flow' : Flow}
      (flows : program.flowStmtBy program.usesWritten fuel flow id = some flow') :
      Program.flowSequence (program.flowStmtBy program.usesWritten fuel) flow [id] = some flow' :=
    (Program.flowSequence_singleton _ _ _).trans flows
  constructor
  case nil =>
    intro first loop behind _ fuel flow flow' within flows
    cases flows
    exact ⟨within, ranks.nil first loop behind, fun _ _ _ _ _ _ given guards _ tracks =>
      ⟨given, fun _ _ => rfl, guards, id, tracks⟩⟩
  case cons =>
    intro first middle last id rest loop step steps first_le middle_le head tail behind last_le fuel
      flow flow' within flows
    obtain ⟨middleFlow, headFlows, tailFlows⟩ := Option.bind_eq_some_iff.1 flows
    obtain ⟨middleWithin, headInitializes⟩ :=
      head behind (middle_le.trans last_le) fuel flow middleFlow within (one headFlows)
    obtain ⟨lastWithin, tailInitializes⟩ :=
      tail (behind.trans_le first_le) last_le fuel middleFlow flow' middleWithin tailFlows
    have lowers : LowersStmtRanked program scope first last loop (do step; steps) :=
      @FollowsForms.cons _ _ _ _ ranks first middle last id rest loop step steps first_le middle_le
        (fun _ => headInitializes.lowers) (fun _ => tailInitializes.lowers) behind
    exact ⟨lastWithin, headInitializes.cons lowers tailInitializes⟩
  case block =>
    intro first last id statements loop step is inner behind last_le fuel flow flow' within flows
    obtain ⟨less, form⟩ := Program.flowForm_of_singleton flows
    rw [is.2] at form
    exact inner behind last_le less flow flow' within form
  case whenTrue =>
    intro first last id guard body loop step is names first_le inner behind last_le fuel flow flow'
      within flows
    obtain ⟨less, form⟩ := Program.flowForm_of_singleton flows
    rw [is.2, Program.flowFormBy] at form
    obtain ⟨uses, form⟩ := Option.ite_none_right_eq_some.1 form
    obtain ⟨bodyFlow, bodyFlows, rfl⟩ := Option.map_eq_some_iff.1 form
    obtain ⟨_, bodyInitializes⟩ := inner behind last_le less flow bodyFlow within (one bodyFlows)
    exact ⟨within.mono fun _ declares => declares.mono first_le,
      lowerWhen_initializes followable (first_le.trans last_le) names
        ((typed is).guard guard (.inl ⟨body, rfl⟩)) uses within bodyInitializes⟩
  case ifElse =>
    intro first second last id guard whenTrue whenFalse loop trueStep falseStep is names first_le
      second_le trueInner falseInner behind last_le fuel flow flow' within flows
    obtain ⟨less, form⟩ := Program.flowForm_of_singleton flows
    rw [is.2, Program.flowFormBy] at form
    obtain ⟨uses, form⟩ := Option.ite_none_right_eq_some.1 form
    obtain ⟨trueFlow, trueFlows, form⟩ := Option.bind_eq_some_iff.1 form
    obtain ⟨falseFlow, falseFlows, rfl⟩ := Option.map_eq_some_iff.1 form
    have secondWithin := within.mono fun _ declares => declares.mono first_le
    obtain ⟨trueWithin, trueInitializes⟩ :=
      trueInner behind (second_le.trans last_le) less flow trueFlow within (one trueFlows)
    obtain ⟨falseWithin, falseInitializes⟩ := falseInner (behind.trans_le first_le) last_le less flow
      falseFlow secondWithin (one falseFlows)
    exact ⟨(trueWithin.mono fun _ declares => declares.mono second_le).join falseWithin,
      lowerIf_initializes followable ((first_le.trans second_le).trans last_le) names
        ((typed is).guard guard (.inr (.inl ⟨whenTrue, whenFalse, rfl⟩))) uses within
        trueInitializes falseInitializes trueWithin⟩
  case whileTrue =>
    intro first last id guard body loop step is names first_le inner behind last_le fuel flow flow'
      within flows
    obtain ⟨less, form⟩ := Program.flowForm_of_singleton flows
    rw [is.2, Program.flowFormBy] at form
    obtain ⟨uses, form⟩ := Option.ite_none_right_eq_some.1 form
    obtain ⟨bodyFlow, bodyFlows, rfl⟩ := Option.map_eq_some_iff.1 form
    exact ⟨within.mono fun _ declares => declares.mono first_le,
      lowerWhile_initializes followable (first_le.trans last_le) names
        ((typed is).guard guard (.inr (.inr ⟨body, rfl⟩))) uses within fun targets =>
          (inner targets behind last_le less flow bodyFlow within (one bodyFlows)).2⟩
  case breakLoop =>
    intro first id location loop is behind _ fuel flow flow' _ flows
    obtain ⟨less, form⟩ := Program.flowForm_of_singleton flows
    rw [is.2, Program.flowFormBy, Option.some.injEq] at form
    exact form ▸ ⟨trivial, lowerJump_initializes (fun _ => .inr rfl) (ranks.breakLoop is behind)⟩
  case continueLoop =>
    intro first id location loop is behind _ fuel flow flow' _ flows
    obtain ⟨less, form⟩ := Program.flowForm_of_singleton flows
    rw [is.2, Program.flowFormBy, Option.some.injEq] at form
    exact form ▸ ⟨trivial, lowerJump_initializes (fun _ => .inl rfl) (ranks.continueLoop is behind)⟩
  case returnValue =>
    intro first id value loop is names behind last_le fuel flow flow' _ flows
    obtain ⟨less, form⟩ := Program.flowForm_of_singleton flows
    rw [is.2, Program.flowFormBy] at form
    obtain ⟨uses, form⟩ := Option.ite_none_right_eq_some.1 form
    exact Option.some.inj form ▸ ⟨trivial, lowerReturn_initializes followable last_le names uses
      (ranks.returnValue is names behind)⟩
  case declaration =>
    intro first id kind type initializer loop is kind_eq names behind last_le fuel flow flow' within
      flows
    obtain ⟨less, form⟩ := Program.flowForm_of_singleton flows
    rw [is.2, Program.flowFormBy, kind_eq] at form
    obtain ⟨uses, form⟩ := Option.ite_none_right_eq_some.1 form
    refine Option.some.inj form ▸ ⟨?_, lowerLocal_initializes followable behind
      (Nat.lt_of_succ_le last_le) kind_eq names uses within
      (ranks.declaration is kind_eq names behind)⟩
    exact within.declare (fun _ declares => declares.mono (Nat.le_succ _))
      (.inr ⟨behind, Nat.lt_succ_self _⟩)
  case expression =>
    intro first id value loop is names behind last_le fuel flow flow' within flows
    obtain ⟨less, form⟩ := Program.flowForm_of_singleton flows
    rw [is.2, Program.flowFormBy] at form
    obtain ⟨uses, form⟩ := Option.ite_none_right_eq_some.1 form
    exact Option.some.inj form ▸ ⟨within, lowerDiscarded_initializes followable last_le names uses
      (ranks.expression is names behind)⟩

end Lowering

end Minilang
