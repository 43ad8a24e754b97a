import Minilang.Proofs.Analysis.DefiniteBinding
import Minilang.Proofs.Lowering.ExpressionFlow
import Minilang.Proofs.Lowering.Statements

/-!
# Flow of temporaries in statements

Statements that use only constants that are bound on every way use only temporaries that are defined on
every way.
-/

namespace Minilang.Lowering

open Builder (Flowing Carries Grows)

/-- A function of a coherent program that shares no declarations with the top of the program. -/
structure Separate (program : Program) (scope : FunctionScope) (next : Nat) : Prop
    extends Lowerable program scope where
  apart : ∀ other ∈ program.declarations,
    other.index ≤ scope.function.index ∨ next ≤ other.index

variable {program : Program} {scope : FunctionScope} {first count next : Nat}
  {before middle after : Builder} {entries between later : Entries} {flow : Flow}

/-- What stands at the top has no value in a function. -/
theorem Separate.unbound (separate : Separate program scope next) (binds : Binds scope count before)
    (count_le : count ≤ next) {declaration : DeclId} (atTop : declaration ∈ program.declarations) :
    before.local? declaration = none := by
  rw [← Option.not_isSome_iff_eq_none, binds declaration]
  rintro (isParameter | ⟨behind, bound⟩)
  · obtain ⟨type, kind_eq⟩ := separate.parameter_kind declaration isParameter
    cases separate.coherent.topLevel declaration atTop with
    | object other_eq => rw [kind_eq] at other_eq; cases other_eq
    | function other_eq => rw [kind_eq] at other_eq; cases other_eq
  · have := separate.apart declaration atTop
    omega

/-- What the values of names are: addresses of room for objects, or values of constants that are offered
where the constants are bound. -/
structure Keeps (program : Program) (flow : Flow) (builder : Builder) (entries : Entries) : Prop where
  stored : ∀ declaration value, builder.local? declaration = some value →
    (program.ast.kindOf declaration).isConstant = true ∨
      ∃ temporary, value = .temp temporary ∧ temporary ∈ Ir.results builder.allocas.toList
  reached : flow = .unreachable → ∀ temporary, builder.Offered entries temporary
  bound : ∀ names, flow = .reachable names → ∀ declaration ∈ names,
    (builder.local? declaration).isSome = true ∧
      ∀ temporary, builder.local? declaration = some (.temp temporary) →
        builder.Offered entries temporary

/-- Whether the blocks that jumps lead to are given no more than what is offered. -/
def Admits (loop : Option LoopTargets) (builder : Builder) (entries : Entries) : Prop :=
  ∀ targets, loop = some targets → ∀ temporary,
    (entries targets.continueBlock temporary → builder.Offered entries temporary) ∧
      (entries targets.breakBlock temporary → builder.Offered entries temporary)

theorem Admits.carry {loop : Option LoopTargets} (admits : Admits loop before entries)
    (reaches : Reaches loop before) (carries : before.Carries entries after later) :
    Admits loop after later := by
  intro targets within temporary
  obtain ⟨continue_lt, break_lt⟩ := reaches targets within
  rw [carries.kept _ continue_lt, carries.kept _ break_lt]
  obtain ⟨continues, breaks⟩ := admits targets within temporary
  exact ⟨fun given => carries.offered temporary (continues given),
    fun given => carries.offered temporary (breaks given)⟩

namespace Keeps

theorem carry (keeps : Keeps program flow before entries)
    (carries : before.Carries entries after later) (locals_eq : after.locals = before.locals) :
    Keeps program flow after later := by
  have local_eq (declaration : DeclId) : after.local? declaration = before.local? declaration := by
    rw [Builder.local?, locals_eq, Builder.local?]
  constructor
  · intro declaration value found
    rw [local_eq] at found
    refine (keeps.stored declaration value found).imp_right ?_
    rintro ⟨temporary, same, room⟩
    exact ⟨temporary, same, (carries.grows.allocas_le.filterMap _).subset room⟩
  · intro unreachable temporary
    exact carries.offered temporary (keeps.reached unreachable temporary)
  · intro names reachable declaration member
    obtain ⟨isLocal, offered⟩ := keeps.bound names reachable declaration member
    rw [local_eq]
    exact ⟨isLocal, fun temporary found => carries.offered temporary (offered temporary found)⟩

/-- What an expression names is usable if its constants are bound. -/
theorem usable (keeps : Keeps program flow before entries)
    (separate : Separate program scope next) (binds : Binds scope count before)
    (count_le : count ≤ next) {id : ExprId} (names : program.ast.Names (scope.Visible count) id)
    (uses : program.usesBound flow id = true) :
    program.ast.Names (Usable program before entries) id := by
  have available := names.mono (binds.available separate.globals_eq)
  have room {temporary : Nat} (isRoom : temporary ∈ Ir.results before.allocas.toList) :
      before.Offered entries temporary := fun _ _ => .inl isRoom
  cases flow with
  | unreachable =>
      exact available.mono fun declaration isAvailable =>
        ⟨isAvailable, fun temporary _ => keeps.reached rfl temporary⟩
  | reachable bound =>
      refine available.of_namesWithin separate.coherent.sound (Nat.lt_succ_of_lt names.index_lt) ?_
      intro declaration member isAvailable
      refine ⟨isAvailable, fun temporary found => ?_⟩
      have isBound := List.all_eq_true.1 uses declaration member
      simp only [decide_eq_true_eq] at isBound
      rcases isBound with notConstant | atTop | isBound
      · rcases keeps.stored declaration _ found with isConstant | ⟨slot, same, isRoom⟩
        · rw [notConstant] at isConstant
          cases isConstant
        · cases same
          exact room isRoom
      · rw [separate.unbound binds count_le atTop] at found
        cases found
      · exact (keeps.bound bound rfl declaration isBound).2 temporary found

/-- What is bound stays bound where what was offered is offered. -/
theorem onward {other : Flow} {earlier joined : Builder} {given : Entries}
    (keeps : Keeps program flow earlier entries) (right : Keeps program other joined between)
    (local_kept : ∀ declaration value, earlier.local? declaration = some value →
      joined.local? declaration = some value) (locals_eq : after.locals = joined.locals)
    (allocas_eq : after.allocas = joined.allocas)
    (offered : ∀ temporary, earlier.Offered entries temporary → after.Offered given temporary) :
    Keeps program flow after given := by
  have local_eq (declaration : DeclId) : after.local? declaration = joined.local? declaration := by
    rw [Builder.local?, locals_eq, Builder.local?]
  constructor
  · intro declaration value found
    rw [local_eq] at found
    rw [allocas_eq]
    exact right.stored declaration value found
  · exact fun unreachable temporary => offered temporary (keeps.reached unreachable temporary)
  · intro names reachable declaration member
    obtain ⟨isLocal, isOffered⟩ := keeps.bound names reachable declaration member
    obtain ⟨value, found⟩ := Option.isSome_iff_exists.1 isLocal
    have kept := local_kept declaration value found
    rw [local_eq, kept]
    refine ⟨rfl, fun temporary isTemporary => offered temporary (isOffered temporary ?_)⟩
    rw [found, isTemporary]

/-- Where two ways meet, what is bound on both is bound. -/
theorem join {first second : Flow} {earlier joined : Builder} {given : Entries}
    (left : Keeps program first earlier entries) (right : Keeps program second joined between)
    (local_kept : ∀ declaration value, earlier.local? declaration = some value →
      joined.local? declaration = some value) (locals_eq : after.locals = joined.locals)
    (allocas_eq : after.allocas = joined.allocas)
    (offered : ∀ temporary, earlier.Offered entries temporary →
      joined.Offered between temporary → after.Offered given temporary) :
    Keeps program (first.join second) after given := by
  cases first with
  | unreachable =>
      exact right.onward right (fun _ _ found => found) locals_eq allocas_eq fun temporary =>
        offered temporary (left.reached rfl temporary)
  | reachable bound =>
      have fromLeft (reached : second = .unreachable) :
          Keeps program (.reachable bound) after given :=
        left.onward right local_kept locals_eq allocas_eq fun temporary isOffered =>
          offered temporary isOffered (right.reached reached temporary)
      cases second with
      | unreachable => exact fromLeft rfl
      | reachable other =>
          have local_eq (declaration : DeclId) :
              after.local? declaration = joined.local? declaration := by
            rw [Builder.local?, locals_eq, Builder.local?]
          refine ⟨fun declaration value found => ?_, (fun same => by cases same), ?_⟩
          · rw [local_eq] at found
            rw [allocas_eq]
            exact right.stored declaration value found
          · rintro _ ⟨rfl⟩ declaration member
            obtain ⟨inFirst, inSecond⟩ := List.mem_filter.1 member
            obtain ⟨isLocal, leftOffered⟩ := left.bound bound rfl declaration inFirst
            obtain ⟨value, found⟩ := Option.isSome_iff_exists.1 isLocal
            have kept := local_kept declaration value found
            obtain ⟨_, rightOffered⟩ := right.bound other rfl declaration (by simpa using inSecond)
            rw [local_eq]
            refine ⟨by rw [kept]; rfl, fun temporary isTemporary => ?_⟩
            refine offered temporary (leftOffered temporary ?_) (rightOffered temporary isTemporary)
            rw [found, ← kept, isTemporary]

end Keeps

/-- Statements are lowered using only what is defined on every way, if they use only what is bound. -/
def FlowsStmt (program : Program) (scope : FunctionScope) (first last : Nat)
    (loop : Option LoopTargets) (flow flow' : Flow) (lower : Build Unit) : Prop :=
  ∀ (before : Builder) (entries : Entries), before.Flowing entries → Binds scope first before →
    Reaches loop before → Admits loop before entries → Keeps program flow before entries →
    Builds lower before
      (fun _ after => Binds scope last after ∧
        ∃ later, before.Carries entries after later ∧ Keeps program flow' after later)
      fun _ => True

/-- An expression that uses only what is bound is lowered using only what is offered. -/
theorem Separate.expression_flows (separate : Separate program scope next)
    (flowing : before.Flowing entries) (binds : Binds scope count before) (count_le : count ≤ next)
    (keeps : Keeps program flow before entries) {id : ExprId}
    (names : program.ast.Names (scope.Visible count) id)
    (uses : program.usesBound flow id = true) :
    Builds (lowerExpr program id) before
      (fun value after => GivesValue before value after ∧ OffersValue before entries value after)
      fun _ => False :=
  lowerExpr_flows separate.coherent id before entries flowing
    (fun _ atTop => separate.unbound binds count_le atTop)
    (keeps.usable separate binds count_le names uses)

section Forms

variable {loop : Option LoopTargets} {body whenFalse : Build Unit} {guard : ExprId}
  {second : Nat} {bodyFlow falseFlow : Flow} (separate : Separate program scope next)
  (first_le : first ≤ next) (names : program.ast.Names (scope.Visible first) guard)
  (uses : program.usesBound flow guard = true)

include separate first_le names uses

theorem lowerWhen_flows (flowsBody : FlowsStmt program scope first count loop flow bodyFlow body) :
    FlowsStmt program scope first count loop flow flow (lowerWhen program guard body) := by
  intro before entries flowing binds reaches admits keeps
  rw [builds_lowerWhen]
  refine (separate.expression_flows flowing binds first_le keeps names uses).mono ?_
    fun _ => False.elim
  rintro condition split ⟨gives, between, toSplit, conditionOffered⟩
  obtain ⟨forked, toFork, onward⟩ := Carries.splitTwo toSplit.flowing gives.below conditionOffered
    .whenThen .whenEnd
  have awaits := Builder.Awaits.splitTwo toSplit.flowing.valid .whenThen .whenEnd condition
  have started := toSplit.trans toFork
  have locals_eq : (split.splitTwo .whenThen .whenEnd condition).locals = before.locals := by
    simp [gives.locals_eq]
  refine (flowsBody _ forked started.flowing (binds.of_locals_eq locals_eq)
    (reaches.of_grows started.grows) (admits.carry reaches started)
    (keeps.carry started locals_eq)).mono ?_ fun _ => id
  rintro _ joined ⟨joinedBinds, later, toJoined, joinedKeeps⟩
  have all := started.trans toJoined
  have new : before.blocks.size ≤ split.blocks.size + 1 := Nat.le_succ_of_le toSplit.grows.size_le
  have given (temporary : Nat) (offered : split.Offered between temporary) :
      later (split.blocks.size + 1) temporary := by
    rw [toJoined.kept _ awaits.fresh.lt_size]
    exact onward temporary offered
  have joinedAwaits := awaits.of_grows toJoined.grows
  refine ⟨joinedBinds.of_locals_eq (joined.leave_locals _ _), _,
    Carries.join all.grows all.flowing all.kept joinedAwaits new joinedAwaits new
      (fun temporary offered => given temporary (toSplit.offered temporary offered)) all.offered, ?_⟩
  refine (keeps.carry toSplit gives.locals_eq).onward joinedKeeps
    (fun _ _ => (toFork.trans toJoined).grows.local_kept) (joined.leave_locals _ _) (joined.leave_allocas _ _) ?_
  intro temporary offered
  exact Builder.offered_goTo ⟨given temporary offered,
    fun _ => (toFork.trans toJoined).offered temporary offered⟩

theorem lowerIf_flows (flowsTrue : FlowsStmt program scope first second loop flow bodyFlow body)
    (flowsFalse : FlowsStmt program scope second count loop flow falseFlow whenFalse) :
    FlowsStmt program scope first count loop flow (bodyFlow.join falseFlow)
      (lowerIf program guard body whenFalse) := by
  intro before entries flowing binds reaches admits keeps
  rw [builds_lowerIf]
  refine (separate.expression_flows flowing binds first_le keeps names uses).mono ?_
    fun _ => False.elim
  rintro condition split ⟨gives, between, toSplit, conditionOffered⟩
  obtain ⟨forked, toFork, onward, untouched⟩ := Carries.splitThree toSplit.flowing gives.below
    conditionOffered .ifThen .ifElse .ifEnd
  obtain ⟨awaitsElse, awaitsEnd⟩ := Builder.Awaits.splitThree toSplit.flowing.valid .ifThen .ifElse
    .ifEnd condition
  have started := toSplit.trans toFork
  have new : before.blocks.size ≤ split.blocks.size := toSplit.grows.size_le
  have locals_eq : (split.splitThree .ifThen .ifElse .ifEnd condition).locals = before.locals := by
    simp [gives.locals_eq]
  refine (flowsTrue _ forked started.flowing (binds.of_locals_eq locals_eq)
    (reaches.of_grows started.grows) (admits.carry reaches started)
    (keeps.carry started locals_eq)).mono ?_ fun _ => id
  rintro _ turned ⟨turnedBinds, turnedEntries, toTurned, turnedKeeps⟩
  have turnedAll := started.trans toTurned
  have turnedAwaitsElse := awaitsElse.of_grows toTurned.grows
  have turnedAwaitsEnd := awaitsEnd.of_grows toTurned.grows
  have givenElse (temporary : Nat) (offered : split.Offered between temporary) :
      turnedEntries (split.blocks.size + 1) temporary := by
    rw [toTurned.kept _ awaitsElse.fresh.lt_size]
    exact onward temporary offered
  have toElse := Carries.join turnedAll.grows turnedAll.flowing turnedAll.kept turnedAwaitsEnd
    (new.trans (Nat.le_add_right _ 2)) turnedAwaitsElse (new.trans (Nat.le_succ _))
    (fun temporary offered => givenElse temporary (toSplit.offered temporary offered))
    turnedAll.offered
  have elseAwaitsEnd := turnedAwaitsEnd.leave (split.blocks.size + 2)
    (Nat.ne_of_lt (Nat.lt_succ_self (split.blocks.size + 1)))
  have elseKeeps : Keeps program flow
      (turned.leave (split.blocks.size + 2) (split.blocks.size + 1))
      (turnedEntries.narrow (split.blocks.size + 2) (turned.Offered turnedEntries)) := by
    refine (keeps.carry toSplit gives.locals_eq).onward turnedKeeps
      (fun _ _ => (toFork.trans toTurned).grows.local_kept) (turned.leave_locals _ _)
      (turned.leave_allocas _ _) ?_
    intro temporary offered
    exact Builder.offered_goTo ⟨givenElse temporary offered,
      fun _ => (toFork.trans toTurned).offered temporary offered⟩
  refine (flowsFalse _ _ toElse.flowing
    (turnedBinds.of_locals_eq (turned.leave_locals _ _)) (reaches.of_grows toElse.grows)
    (admits.carry reaches toElse) elseKeeps).mono ?_ fun _ => id
  rintro _ joined ⟨joinedBinds, joinedEntries, toJoined, joinedKeeps⟩
  have joinedAll := toElse.trans toJoined
  have joinedAwaitsEnd := elseAwaitsEnd.of_grows toJoined.grows
  have givenEnd (temporary : Nat) (offered : turned.Offered turnedEntries temporary) :
      joinedEntries (split.blocks.size + 2) temporary := by
    rw [toJoined.kept _ elseAwaitsEnd.fresh.lt_size]
    refine ⟨?_, fun _ => offered⟩
    rw [toTurned.kept _ awaitsEnd.fresh.lt_size]
    exact untouched temporary
  refine ⟨joinedBinds.of_locals_eq (joined.leave_locals _ _), _,
    Carries.join joinedAll.grows joinedAll.flowing joinedAll.kept joinedAwaitsEnd
      (new.trans (Nat.le_add_right _ 2)) joinedAwaitsEnd (new.trans (Nat.le_add_right _ 2))
      (fun temporary offered => givenEnd temporary (turnedAll.offered temporary offered))
      joinedAll.offered, ?_⟩
  have local_kept (declaration : DeclId) (value : Ir.Value)
      (found : turned.local? declaration = some value) :
      joined.local? declaration = some value := by
    apply toJoined.grows.local_kept
    rw [Builder.local?, Builder.leave_locals]
    exact found
  refine turnedKeeps.join joinedKeeps local_kept (joined.leave_locals _ _)
    (joined.leave_allocas _ _) ?_
  intro temporary turnedOffered joinedOffered
  exact Builder.offered_goTo ⟨givenEnd temporary turnedOffered, fun _ => joinedOffered⟩

theorem lowerWhile_flows {body : LoopTargets → Build Unit}
    (flowsBody : ∀ targets,
      FlowsStmt program scope first count (some targets) flow bodyFlow (body targets)) :
    FlowsStmt program scope first count loop flow flow (lowerWhile program guard body) := by
  intro before entries flowing binds _ _ keeps
  rw [builds_lowerWhile]
  obtain ⟨started, toStart, untouched⟩ := Carries.startLoop flowing
  obtain ⟨startBody, startEnd⟩ := Builder.Awaits.startLoop flowing.valid
  refine (separate.expression_flows toStart.flowing (binds.of_locals_eq before.startLoop_locals)
    first_le (keeps.carry toStart before.startLoop_locals) names uses).mono ?_ fun _ => False.elim
  rintro condition tested ⟨gives, between, toTested, conditionOffered⟩
  have testedAll := toStart.trans toTested
  have awaitsBody := startBody.of_grows toTested.grows
  have awaitsEnd := startEnd.of_grows toTested.grows
  have testedGiven (block temporary : Nat) (bound : block < before.startLoop.blocks.size)
      (isGiven : started block temporary) : between block temporary := by
    rw [toTested.kept block bound]
    exact isGiven
  obtain ⟨forked, toBody, keep, onward, back⟩ := testedAll.fork
    (.condBranch condition (before.blocks.size + 1) (before.blocks.size + 2))
    (by simpa [Ir.Terminator.operands] using gives.below)
    (fun temporary operand => conditionOffered temporary
      (by simpa [Ir.Terminator.operands, eq_comm] using operand))
    (by simp [Ir.Terminator.successors]) awaitsBody awaitsEnd (Nat.le_succ _)
    (Nat.le_add_right _ 2)
    (fun temporary => testedGiven _ temporary startBody.fresh.lt_size (untouched temporary).1)
  have locals_eq : ((tested.endWith (.condBranch condition (before.blocks.size + 1)
      (before.blocks.size + 2))).goTo (before.blocks.size + 1)).locals = before.locals := by
    simp [gives.locals_eq]
  have head_lt : before.blocks.size < before.startLoop.blocks.size :=
    Nat.lt_of_succ_lt startBody.fresh.lt_size
  have onHead (temporary : Nat) (isGiven : forked before.blocks.size temporary) :
      tested.Offered between temporary := by
    rw [keep _ (by omega) (by omega), toTested.kept _ head_lt] at isGiven
    exact toTested.offered temporary (Builder.offered_goTo isGiven)
  have bodyAwaitsEnd := (awaitsEnd.endWith (.condBranch condition (before.blocks.size + 1)
    (before.blocks.size + 2))).goTo (Nat.ne_of_lt (Nat.lt_succ_self (before.blocks.size + 1)))
  refine (flowsBody _ _ forked toBody.flowing (binds.of_locals_eq locals_eq) ?_ ?_
    (keeps.carry toBody locals_eq)).mono ?_ fun _ => id
  · rintro _ ⟨rfl⟩
    have end_lt := bodyAwaitsEnd.fresh.lt_size
    exact ⟨by dsimp only; omega, end_lt⟩
  · rintro _ ⟨rfl⟩ temporary
    exact ⟨fun isGiven => Builder.offered_goTo (onward temporary (onHead temporary isGiven)).1,
      fun isGiven => Builder.offered_goTo (back temporary isGiven)⟩
  rintro _ turned ⟨turnedBinds, later, toTurned, turnedKeeps⟩
  have all := toBody.trans toTurned
  have turnedAwaits := bodyAwaitsEnd.of_grows toTurned.grows
  have bodyHead_lt := bodyAwaitsEnd.fresh.lt_size
  have edge (temporary : Nat) (isGiven : later before.blocks.size temporary) :
      turned.Offered later temporary := by
    rw [toTurned.kept _ (by omega)] at isGiven
    exact toTurned.offered temporary
      (Builder.offered_goTo (onward temporary (onHead temporary isGiven)).1)
  have given (temporary : Nat) (offered : tested.Offered between temporary) :
      later (before.blocks.size + 2) temporary := by
    rw [toTurned.kept _ bodyAwaitsEnd.fresh.lt_size]
    exact (onward temporary offered).2
      (testedGiven _ temporary startEnd.fresh.lt_size (untouched temporary).2)
  refine ⟨turnedBinds.of_locals_eq (turned.leave_locals _ _), later,
    Carries.leave all.grows all.flowing all.kept
      (Nat.lt_of_succ_lt (Nat.lt_of_succ_lt turnedAwaits.fresh.lt_size)) edge turnedAwaits
      (Nat.le_add_right _ 2)
      (fun temporary offered => given temporary (testedAll.offered temporary offered)), ?_⟩
  exact keeps.onward turnedKeeps (fun _ _ => all.grows.local_kept) (turned.leave_locals _ _)
    (turned.leave_allocas _ _) fun temporary offered =>
      Builder.offered_goTo (given temporary (testedAll.offered temporary offered))

end Forms

/-- A declaration puts its constant among those that are bound. -/
theorem Keeps.bind {value : Ir.Value} {id : DeclId} (keeps : Keeps program flow before entries)
    (allocas_le : before.allocas.toList <+: after.allocas.toList)
    (locals_eq : after.locals = (before.bind id value).locals)
    (fits : (program.ast.kindOf id).isConstant = true ∨
      ∃ temporary, value = .temp temporary ∧ temporary ∈ Ir.results after.allocas.toList)
    (offered : ∀ temporary, before.Offered entries temporary → after.Offered later temporary)
    (valueOffered : ∀ temporary, value = .temp temporary → after.Offered later temporary) :
    Keeps program (flow.declare id) after later := by
  have local_eq (declaration : DeclId) : after.local? declaration =
      if declaration = id then some value else before.local? declaration := by
    rw [Builder.local?, locals_eq, Builder.bind_locals, List.lookup_cons]
    by_cases same : declaration = id
    · simp [same]
    · rw [beq_eq_false_iff_ne.2 same, if_neg same, Builder.local?]
  constructor
  · intro declaration other found
    rw [local_eq] at found
    split at found
    · next same =>
      cases found
      exact same ▸ fits
    · refine (keeps.stored declaration other found).imp_right ?_
      rintro ⟨temporary, isTemporary, room⟩
      exact ⟨temporary, isTemporary, (allocas_le.filterMap _).subset room⟩
  · intro unreachable temporary
    cases flow with
    | unreachable => exact offered temporary (keeps.reached rfl temporary)
    | reachable bound => cases unreachable
  · intro names reachable declaration member
    cases flow with
    | unreachable => cases reachable
    | reachable bound =>
        cases reachable
        rw [local_eq]
        split
        · exact ⟨rfl, fun temporary found => valueOffered temporary (Option.some.inj found)⟩
        · next different =>
          rcases List.mem_cons.1 member with same | member
          · exact absurd same different
          · obtain ⟨isLocal, isOffered⟩ := keeps.bound bound rfl declaration member
            exact ⟨isLocal, fun temporary found => offered temporary (isOffered temporary found)⟩

/-- What was bound before a declaration is bound behind it. -/
theorem Keeps.of_declare {id : DeclId} (keeps : Keeps program (flow.declare id) before entries) :
    Keeps program flow before entries where
  stored := keeps.stored
  reached unreachable := keeps.reached (by rw [unreachable, Flow.declare])
  bound names reachable declaration member :=
    keeps.bound (id :: names) (by rw [reachable, Flow.declare]) declaration
      (List.mem_cons_of_mem _ member)

theorem lowerLocal_flows (separate : Separate program scope next)
    (behind : scope.function.index < count) (count_lt : count < next) {kind : ObjectKind}
    {type : Ty} {initializer : ExprId} {loop : Option LoopTargets}
    (kind_eq : program.ast.kindOf ⟨count⟩ = .object kind type (some initializer))
    (names : program.ast.Names (scope.Visible (if kind = .var then count + 1 else count))
      initializer)
    (uses : program.usesBound flow initializer = true) :
    FlowsStmt program scope count (count + 1) loop flow (flow.declare ⟨count⟩)
      (lowerLocal program ⟨count⟩) := by
  intro before entries flowing binds _ _ keeps
  have unbound := binds.unbound (separate.not_parameter kind_eq)
  by_cases isVariable : kind = .var
  · rw [if_pos isVariable] at names
    rw [isVariable] at kind_eq
    rw [builds_lowerLocal_of_variable kind_eq]
    have toRoom := Carries.addAlloca flowing (.ofTy type)
    have toBound : before.Carries entries ((before.addAlloca (.ofTy type)).bind ⟨count⟩
        (.temp before.temporaries)) entries :=
      toRoom.trans (.bind toRoom.flowing unbound (Nat.lt_succ_self _))
    have bound := (binds.of_locals_eq (before.addAlloca_locals (.ofTy type))).bind behind
      (.temp before.temporaries)
    have room : before.temporaries ∈
        Ir.results (before.addAlloca (.ofTy type)).allocas.toList := by
      simp [Builder.addAlloca]
    have roomOffered (temporary : Nat) (same : Ir.Value.temp before.temporaries = .temp temporary) :
        ((before.addAlloca (.ofTy type)).bind ⟨count⟩ (.temp before.temporaries)).Offered entries
          temporary := by
      cases same
      exact fun _ _ => .inl room
    have boundKeeps := keeps.bind toBound.grows.allocas_le rfl (.inr ⟨_, rfl, room⟩)
      toBound.offered roomOffered
    refine (separate.expression_flows toBound.flowing bound count_lt boundKeeps.of_declare names
      uses).mono ?_ fun _ => False.elim
    rintro value after ⟨gives, later, toAfter, offered⟩
    have slotBelow : before.temporaries < after.temporaries :=
      Nat.lt_of_lt_of_le (Nat.lt_succ_self _) gives.grows.temporaries_le
    have performed := Carries.perform toAfter.flowing
      (.store (.ofTy type) value (.temp before.temporaries)) ?_ rfl ?_
    · refine ⟨(bound.of_locals_eq gives.locals_eq).of_locals_eq (after.perform_locals _), later,
        (toBound.trans toAfter).trans performed, ?_⟩
      exact (boundKeeps.carry toAfter gives.locals_eq).carry performed (after.perform_locals _)
    · simp only [Ir.Operation.operands, List.forall_mem_cons]
      exact ⟨gives.below, slotBelow, by simp⟩
    · intro temporary operand
      rw [Ir.Operation.operands, List.mem_cons, List.mem_singleton] at operand
      rcases operand with same | same
      · exact offered temporary same.symm
      · exact toAfter.offered temporary (roomOffered temporary same.symm)
  · rw [if_neg isVariable] at names
    rw [builds_lowerLocal_of_constant isVariable kind_eq]
    refine (separate.expression_flows flowing binds count_lt.le keeps names uses).mono ?_
      fun _ => False.elim
    rintro value after ⟨gives, later, toAfter, offered⟩
    have same := binds.of_locals_eq gives.locals_eq
    have afterUnbound := same.unbound (separate.not_parameter kind_eq)
    refine ⟨same.bind behind value, later,
      toAfter.trans (.bind toAfter.flowing afterUnbound gives.below), ?_⟩
    refine (keeps.carry toAfter gives.locals_eq).bind List.prefix_rfl rfl (.inl ?_)
      (fun _ isOffered => isOffered) offered
    rw [kind_eq]
    cases kind with
    | var => exact absurd rfl isVariable
    | const | value => rfl

/-- Jumps lead to blocks that are given no more than what is offered. -/
theorem lowerJump_flows {loop : Option LoopTargets} {target : LoopTargets → Nat}
    {location : Location} {error : SemanticError}
    (isTarget : ∀ targets, target targets = targets.continueBlock ∨
      target targets = targets.breakBlock) :
    FlowsStmt program scope count count loop flow .unreachable
      (lowerJump loop target location error) := by
  intro before entries flowing binds reaches admits keeps
  cases loop with
  | none => trivial
  | some targets =>
      rw [lowerJump, builds_terminate]
      have target_lt : target targets < before.blocks.size := by
        obtain ⟨continue_lt, break_lt⟩ := reaches targets rfl
        rcases isTarget targets with same | same <;> rwa [same]
      have edge (temporary : Nat) (isGiven : entries (target targets) temporary) :
          before.Offered entries temporary := by
        obtain ⟨continues, breaks⟩ := admits targets rfl temporary
        rcases isTarget targets with same | same
        · exact continues (same ▸ isGiven)
        · exact breaks (same ▸ isGiven)
      have grows := (Grows.refl : before.Grows before).endWith (.branch (target targets))
        (by simp [Ir.Terminator.operands]) (by simpa [Ir.Terminator.successors] using target_lt)
      have ended := flowing.endWith (.branch (target targets)) grows
        (by simp [Ir.Terminator.operands]) (by simpa [Ir.Terminator.successors] using edge)
      refine ⟨binds.of_locals_eq (before.endWith_locals _), entries,
        ⟨grows, ended, fun _ _ => rfl, fun _ _ _ same => by cases same⟩, ?_,
        (fun _ _ _ same => by cases same), fun _ same => by cases same⟩
      intro declaration value found
      rw [Builder.local?, Builder.endWith_locals] at found
      rw [Builder.endWith_allocas]
      exact keeps.stored declaration value found

/-- Statements one after another. -/
theorem FlowsStmt.cons {loop : Option LoopTargets} {step steps : Build Unit} {last : Nat}
    {middleFlow lastFlow : Flow}
    (flowsFirst : FlowsStmt program scope first count loop flow middleFlow step)
    (flowsRest : FlowsStmt program scope count last loop middleFlow lastFlow steps) :
    FlowsStmt program scope first last loop flow lastFlow (do step; steps) := by
  intro before entries flowing binds reaches admits keeps
  rw [builds_bind]
  refine (flowsFirst before entries flowing binds reaches admits keeps).mono ?_ fun _ _ => trivial
  rintro _ middle ⟨middleBinds, between, toMiddle, middleKeeps⟩
  refine (flowsRest middle between toMiddle.flowing middleBinds (reaches.of_grows toMiddle.grows)
    (admits.carry reaches toMiddle) middleKeeps).mono ?_ fun _ _ => trivial
  rintro _ after ⟨afterBinds, later, toAfter, afterKeeps⟩
  exact ⟨afterBinds, later, toMiddle.trans toAfter, afterKeeps⟩

/-- What a function returns is offered where it is returned. -/
theorem lowerReturn_flows (separate : Separate program scope next) (result : Ir.ValueType)
    {loop : Option LoopTargets} {value : ExprId} (count_le : count ≤ next)
    (names : program.ast.Names (scope.Visible count) value)
    (uses : program.usesBound flow value = true) :
    FlowsStmt program scope count count loop flow .unreachable (do
      let value ← lowerExpr program value
      terminate (.ret result value)) := by
  intro before entries flowing binds _ _ keeps
  rw [builds_bind]
  refine (separate.expression_flows flowing binds count_le keeps names uses).mono ?_
    fun _ => False.elim
  rintro returned after ⟨gives, later, toAfter, offered⟩
  rw [builds_terminate]
  have grows := (Grows.refl : after.Grows after).endWith (.ret result returned)
    (by simpa [Ir.Terminator.operands] using gives.below) (by simp [Ir.Terminator.successors])
  have ended := toAfter.flowing.endWith (.ret result returned) grows
    (fun temporary operand => offered temporary
      (by simpa [Ir.Terminator.operands, eq_comm] using operand))
    (by simp [Ir.Terminator.successors])
  have kept := keeps.carry toAfter gives.locals_eq
  refine ⟨(binds.of_locals_eq gives.locals_eq).of_locals_eq (after.endWith_locals _), later,
    toAfter.trans ⟨grows, ended, fun _ _ => rfl, fun _ _ _ same => by cases same⟩, ?_,
    (fun _ _ _ same => by cases same), fun _ same => by cases same⟩
  intro declaration other found
  rw [Builder.local?, Builder.endWith_locals] at found
  rw [Builder.endWith_allocas]
  exact kept.stored declaration other found

/-- A value that nothing is done with changes nothing of what is bound. -/
theorem lowerDiscarded_flows (separate : Separate program scope next) {loop : Option LoopTargets}
    {value : ExprId} (count_le : count ≤ next)
    (names : program.ast.Names (scope.Visible count) value)
    (uses : program.usesBound flow value = true) :
    FlowsStmt program scope count count loop flow flow (do
      let _ ← lowerExpr program value) := by
  intro before entries flowing binds _ _ keeps
  rw [builds_bind]
  refine (separate.expression_flows flowing binds count_le keeps names uses).mono ?_
    fun _ => False.elim
  rintro result after ⟨gives, later, toAfter, offered⟩
  rw [builds_pure]
  exact ⟨binds.of_locals_eq gives.locals_eq, later, toAfter, keeps.carry toAfter gives.locals_eq⟩

/-- The flow through a single statement goes through its form. -/
theorem exists_flowForm {program : Program} {fuel : Nat} {id : StmtId} {form : Stmt}
    (is : program.ast.StmtIs id form)
    {lastFlow : Flow}
    (flows : Program.flowSequence (program.flowStmtWithin fuel) flow [id] = some lastFlow) :
    ∃ less, program.flowForm (program.flowStmtWithin less) flow form = some lastFlow := by
  obtain ⟨less, middle, rfl, head, tail⟩ := Program.flowSequence_cons flows
  cases tail
  exact ⟨less, is.2 ▸ head⟩

/-- Every form of statement that uses only what is bound is lowered using only what is defined on every way,
if its parts are. -/
theorem followsForms_flows (separate : Separate program scope next) (result : Ir.ValueType) :
    FollowsForms program scope.Visible result fun first statements last loop step =>
      ∀ fuel flow lastFlow,
        Program.flowSequence (program.flowStmtWithin fuel) flow statements = some lastFlow →
        scope.function.index < first → last ≤ next →
        FlowsStmt program scope first last loop flow lastFlow step where
  nil first loop := by
    rintro fuel flow lastFlow ⟨rfl⟩ _ _ before entries flowing binds _ _ keeps
    exact ⟨binds, entries, .refl flowing, keeps⟩
  cons first_le middle_le firstFlows restFlows := by
    intro fuel flow lastFlow flows behind last_le
    obtain ⟨middleFlow, head, tail⟩ := Option.bind_eq_some_iff.1 flows
    replace head := (Program.flowSequence_singleton _ _ _).trans head
    exact (firstFlows fuel flow middleFlow head behind (middle_le.trans last_le)).cons
      (restFlows fuel middleFlow lastFlow tail (behind.trans_le first_le) last_le)
  block is innerFlows := by
    intro fuel flow lastFlow flows behind last_le
    obtain ⟨less, flows⟩ := exists_flowForm is flows
    exact innerFlows less flow lastFlow flows behind last_le
  whenTrue is names first_le innerFlows := by
    intro fuel flow lastFlow flows behind last_le
    obtain ⟨less, flows⟩ := exists_flowForm is flows
    obtain ⟨uses, flows⟩ := Option.ite_none_right_eq_some.1 flows
    obtain ⟨bodyFlow, bodyFlows, rfl⟩ := Option.map_eq_some_iff.1 flows
    replace bodyFlows := (Program.flowSequence_singleton _ _ _).trans bodyFlows
    exact lowerWhen_flows separate (first_le.trans last_le) names uses
      (innerFlows less flow bodyFlow bodyFlows behind last_le)
  ifElse is names first_le second_le leftFlows rightFlows := by
    intro fuel flow lastFlow flows behind last_le
    obtain ⟨less, flows⟩ := exists_flowForm is flows
    obtain ⟨uses, flows⟩ := Option.ite_none_right_eq_some.1 flows
    obtain ⟨trueFlow, trueFlows, flows⟩ := Option.bind_eq_some_iff.1 flows
    obtain ⟨falseFlow, falseFlows, rfl⟩ := Option.map_eq_some_iff.1 flows
    replace trueFlows := (Program.flowSequence_singleton _ _ _).trans trueFlows
    replace falseFlows := (Program.flowSequence_singleton _ _ _).trans falseFlows
    have second_le := second_le.trans last_le
    exact lowerIf_flows separate (first_le.trans second_le) names uses
      (leftFlows less flow trueFlow trueFlows behind second_le)
      (rightFlows less flow falseFlow falseFlows (behind.trans_le first_le) last_le)
  whileTrue is names first_le innerFlows := by
    intro fuel flow lastFlow flows behind last_le
    obtain ⟨less, flows⟩ := exists_flowForm is flows
    obtain ⟨uses, flows⟩ := Option.ite_none_right_eq_some.1 flows
    obtain ⟨bodyFlow, bodyFlows, rfl⟩ := Option.map_eq_some_iff.1 flows
    replace bodyFlows := (Program.flowSequence_singleton _ _ _).trans bodyFlows
    exact lowerWhile_flows separate (first_le.trans last_le) names uses fun targets =>
      innerFlows targets less flow bodyFlow bodyFlows behind last_le
  breakLoop is := by
    intro fuel flow lastFlow flows _ _
    obtain ⟨less, flows⟩ := exists_flowForm is flows
    cases flows
    exact lowerJump_flows fun _ => .inr rfl
  continueLoop is := by
    intro fuel flow lastFlow flows _ _
    obtain ⟨less, flows⟩ := exists_flowForm is flows
    cases flows
    exact lowerJump_flows fun _ => .inl rfl
  returnValue is names := by
    intro fuel flow lastFlow flows _ last_le
    obtain ⟨less, flows⟩ := exists_flowForm is flows
    obtain ⟨uses, flows⟩ := Option.ite_none_right_eq_some.1 flows
    cases flows
    exact lowerReturn_flows separate result last_le names uses
  declaration is kind_eq names := by
    intro fuel flow lastFlow flows behind last_le
    obtain ⟨less, flows⟩ := exists_flowForm is flows
    rw [Program.flowForm, kind_eq] at flows
    obtain ⟨uses, flows⟩ := Option.ite_none_right_eq_some.1 flows
    cases flows
    exact lowerLocal_flows separate behind (Nat.lt_of_succ_le last_le) kind_eq names uses
  expression is names := by
    intro fuel flow lastFlow flows _ last_le
    obtain ⟨less, flows⟩ := exists_flowForm is flows
    obtain ⟨uses, flows⟩ := Option.ite_none_right_eq_some.1 flows
    cases flows
    exact lowerDiscarded_flows separate last_le names uses

end Minilang.Lowering
