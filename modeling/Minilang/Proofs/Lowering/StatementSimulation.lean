import Minilang.Proofs.Lowering.ExpressionSimulation
import Minilang.Proofs.Lowering.StatementFlow
import Minilang.Proofs.Lowering.Storage

/-!
# Lowered statements mean the same

Where a statement of a program is executed, a machine that runs what the statement has been lowered to ends
in the corresponding place: behind the statement, at the start of a block that a jump leads to, or behind the
call with the value that is returned. This needs that the constants that are used are bound on every way.
-/

namespace Minilang.Lowering

open Evaluation (Result World Eval Yields Completion localResult? execSequence execForm yields_pure
  yields_bind yields_lift yields_write yields_guarded yields_execSequence_singleton
  yields_execSequence_cons yields_round yields_variable yields_constant)
open Builder (Grows Valid At AtStart Becomes)

variable {setting : Setting} {call : Call} {level count more next first : Nat}
  {before middle after : Builder} {frame last : Evaluation.Frame} {point final : Point}
  {world turned later : World} {loop : Option LoopTargets} {flow flow' : Flow}
  {completion : Completion} {scope : FunctionScope} {bound : List DeclId}

/-- Whether the values of constants that are bound hold what the constants stand for. -/
def Knows (setting : Setting) (frame : Evaluation.Frame) (builder : Builder) (point : Point)
    (bound : List DeclId) : Prop :=
  ∀ declaration ∈ bound, (setting.program.ast.kindOf declaration).isConstant = true →
    ∃ value, builder.local? declaration = some value ∧
      ∀ result, frame.constants declaration = some result →
        point.Shows setting.program value result

/-- Whether a frame is what another one becomes while names that have had no value are declared. -/
structure Follows (builder : Builder) (before after : Evaluation.Frame) : Prop where
  activation_eq : after.activation = before.activation
  kept : ∀ declaration, (builder.local? declaration).isSome = true →
    after.constants declaration = before.constants declaration

theorem Follows.refl (builder : Builder) (frame : Evaluation.Frame) : Follows builder frame frame :=
  ⟨rfl, fun _ _ => rfl⟩

theorem Follows.trans {between : Evaluation.Frame} (first : Follows before frame between)
    (second : Follows middle between last)
    (local_kept : ∀ declaration value, before.local? declaration = some value →
      middle.local? declaration = some value) : Follows before frame last := by
  refine ⟨second.activation_eq.trans first.activation_eq, fun declaration isLocal => ?_⟩
  obtain ⟨value, found⟩ := Option.isSome_iff_exists.1 isLocal
  rw [second.kept declaration (by rw [local_kept declaration value found]; rfl),
    first.kept declaration isLocal]

/-- Constants that are bound go on holding what they stand for. -/
theorem Knows.advance (knows : Knows setting frame before point bound)
    (advances : Advances setting call before.temporaries point final) (valid : before.Valid)
    (local_kept : ∀ declaration value, before.local? declaration = some value →
      after.local? declaration = some value) (follows : Follows before frame last) :
    Knows setting last after final bound := by
  intro declaration member isConstant
  obtain ⟨value, isLocal, shown⟩ := knows declaration member isConstant
  refine ⟨value, local_kept declaration value isLocal, fun result found => ?_⟩
  rw [follows.kept declaration (by rw [isLocal]; rfl)] at found
  exact advances.shows (shown result found) (valid.localsBelow declaration value isLocal)

theorem Knows.subset {fewer : List DeclId} (knows : Knows setting frame before point bound)
    (subset : fewer ⊆ bound) : Knows setting frame before point fewer :=
  fun declaration member => knows declaration (subset member)

/-- How a machine ends that runs what a statement has been lowered to. -/
inductive Ends (setting : Setting) (call : Call) (count : Nat) (loop : Option LoopTargets)
    (flow : Flow) (after : Builder) (point : Point) (frame : Evaluation.Frame) (later : World) :
    Completion → Prop
  /-- It gets behind the statement. -/
  | normal {bound : List DeclId} {final : Point} :
      flow = .reachable bound → Arrives setting call count point (At call.last after) later final →
      Knows setting frame after final bound →
      Ends setting call count loop flow after point frame later .normal
  /-- It gets behind the innermost loop. -/
  | broken {targets : LoopTargets} {final : Point} :
      loop = some targets →
      Arrives setting call count point (AtStart call.last targets.breakBlock) later final →
      Ends setting call count loop flow after point frame later .broken
  /-- It gets to the next round of the innermost loop. -/
  | continued {targets : LoopTargets} {final : Point} :
      loop = some targets →
      Arrives setting call count point (AtStart call.last targets.continueBlock) later final →
      Ends setting call count loop flow after point frame later .continued
  /-- It gets behind the call. -/
  | returned {result : Result} {layout : Layout} {memory : Ir.Memory} {word : Ir.Word} :
      setting.module.Runs setting.floats (.running point.frame call.callers point.memory)
        (.return word memory call.callers) →
      point.layout.Extends layout → Agrees setting.program layout later memory →
      Matches setting.program layout result word →
      Ends setting call count loop flow after point frame later (.returned result)

/-- A machine ends in the same way if it has come from elsewhere. -/
theorem Ends.behind {position : Ir.Frame → Prop} {start : Point}
    (ends : Ends setting call more loop flow after point frame later completion)
    (arrives : Arrives setting call count start position world point) (count_le : count ≤ more) :
    Ends setting call count loop flow after start frame later completion := by
  cases ends with
  | normal reachable goes knows => exact .normal reachable (arrives.trans goes count_le) knows
  | broken within goes => exact .broken within (arrives.trans goes count_le)
  | continued within goes => exact .continued within (arrives.trans goes count_le)
  | returned runs layout_le agrees same =>
      exact .returned (arrives.advances.runs.trans runs) (arrives.advances.layout_le.trans layout_le)
        agrees same

/-- What holds behind a statement matters only where it completes normally. -/
theorem Ends.onward {otherFlow : Flow} {other : Builder}
    (ends : Ends setting call count loop flow after point frame later completion)
    (goesOn : ∀ bound final, flow = .reachable bound →
      Arrives setting call count point (At call.last after) later final →
      Knows setting frame after final bound →
      Ends setting call count loop otherFlow other point frame later .normal) :
    Ends setting call count loop otherFlow other point frame later completion := by
  cases ends with
  | normal reachable goes knows => exact goesOn _ _ reachable goes knows
  | broken within goes => exact .broken within goes
  | continued within goes => exact .continued within goes
  | returned runs layout_le agrees same => exact .returned runs layout_le agrees same

/-- Whether a machine that runs what statements have been lowered to ends like the statements do, wherever
their execution with limited fuel succeeds. -/
def Executes (setting : Setting) (level : Nat) (loop : Option LoopTargets) (flow flow' : Flow)
    (statements : List StmtId) (before after : Builder) : Prop :=
  ∀ fuel ≤ level, ∀ (call : Call) (frame last : Evaluation.Frame) (point : Point)
    (world later : World) (completion : Completion) (bound : List DeclId),
    flow = .reachable bound → after.Becomes call.last →
    (∀ targets, loop = some targets → 0 < targets.continueBlock ∧ 0 < targets.breakBlock) →
    frame.activation = call.activation → Stands setting call (At call.last before) world point →
    Knows setting frame before point bound →
    Yields (execSequence (setting.program.evaluator setting.floats fuel).stmt frame statements) world
      (completion, last) later →
    Follows before frame last ∧
      Ends setting call before.temporaries loop flow' after point last later completion

/-- Steps that lower statements to what ends like them. -/
def ExecutesStmts (setting : Setting) (level : Nat) (scope : FunctionScope) (first : Nat)
    (statements : List StmtId) (last : Nat) (loop : Option LoopTargets) (flow flow' : Flow)
    (step : Build Unit) : Prop :=
  ∀ before : Builder, before.Valid → Binds scope first before → Reaches loop before →
    Builds step before
      (fun _ after => Settles scope last before after ∧
        (Rooms setting.program before → Rooms setting.program after) ∧
        Executes setting level loop flow flow' statements before after)
      fun _ => True

/-- A statement is executed by its form, which takes one unit of fuel. -/
theorem exists_execForm {fuel : Nat} {id : StmtId} {form : Stmt}
    (is : setting.program.ast.StmtIs id form)
    (yields : Yields (execSequence (setting.program.evaluator setting.floats fuel).stmt frame [id])
      world (completion, last) later) :
    ∃ less < fuel, Yields (execForm setting.program (setting.program.evaluator setting.floats less)
      frame id form) world (completion, last) later := by
  rw [yields_execSequence_singleton] at yields
  cases fuel with
  | zero => cases yields
  | succ less =>
      refine ⟨less, Nat.lt_succ_self less, ?_⟩
      rw [← is.2]
      exact yields

section Expressions

variable (separate : Separate setting.program scope next) (valid : before.Valid)
  (binds : Binds scope count before) {id : ExprId}
  (names : setting.program.ast.Names (scope.Visible count) id)

include separate valid binds names

/-- What an expression names holds what it stands for if its constants are bound. -/
theorem Separate.named {position : Ir.Frame → Prop}
    (uses : setting.program.usesBound (.reachable bound) id = true) (becomes : before.Becomes call.last)
    (activation_eq : frame.activation = call.activation)
    (stands : Stands setting call position world point)
    (knows : Knows setting frame before point bound) :
    setting.program.ast.Names (Named setting frame before point) id := by
  have available := names.mono (binds.available separate.globals_eq)
  refine available.of_namesWithin separate.coherent.sound (Nat.lt_succ_of_lt names.index_lt) ?_
  intro declaration member isAvailable inside result means
  have isLocal : (before.local? declaration).isSome = true :=
    isAvailable.resolve_right inside
  obtain ⟨value, found⟩ := Option.isSome_iff_exists.1 isLocal
  refine ⟨value, found, valid.localsBelow declaration value found, ?_⟩
  rw [localResult?] at means
  by_cases isVariable : (setting.program.ast.kindOf declaration).isVariable = true
  · rw [if_pos isVariable, activation_eq] at means
    cases means
    obtain ⟨temporary, address, rfl, _, held, placed⟩ :=
      stands.slots declaration value isVariable (becomes.local_kept declaration value found)
    exact ⟨.place address, held, .place placed⟩
  · rw [if_neg isVariable] at means
    obtain ⟨isConstant, means⟩ := Option.ite_none_right_eq_some.1 means
    have isBound := List.all_eq_true.1 uses declaration member
    simp only [decide_eq_true_eq, isConstant, Bool.true_eq_false, false_or, inside] at isBound
    obtain ⟨other, otherFound, shown⟩ := knows declaration isBound isConstant
    rw [found] at otherFound
    cases otherFound
    exact shown result means

/-- An expression in a statement means the same. -/
theorem Separate.expression_computes (count_le : count ≤ next)
    (runsCalls : ∀ fuel < level, RunsCalls setting fuel) :
    Builds (lowerExpr setting.program id) before
      (fun value after => GivesValue before value after ∧ Computes setting level id before value after)
      fun _ => False :=
  lowerExpr_computes separate.coherent runsCalls id before valid
    (fun _ atTop => separate.unbound binds count_le atTop)
    (names.mono (binds.available separate.globals_eq))

end Expressions

section Forms

variable {guard : ExprId} {body whenFalse : StmtId} {id : StmtId} {second : Nat}
  {bodyFlow falseFlow : Flow} {trueStep falseStep : Build Unit}

/-- What is known before an expression is known behind it. -/
theorem Knows.behind {value : Ir.Value} (knows : Knows setting frame before point bound)
    (gives : GivesValue before value after) (valid : before.Valid)
    (advances : Advances setting call before.temporaries point final) :
    Knows setting frame after final bound :=
  knows.advance advances valid (fun _ _ => gives.grows.local_kept) (.refl before frame)

section Guards

variable (separate : Separate setting.program scope next)
  (runsCalls : ∀ fuel < level, RunsCalls setting fuel) (first_le : first ≤ next)
  (names : setting.program.ast.Names (scope.Visible first) guard)
  (uses : setting.program.usesBound flow guard = true)

include separate runsCalls first_le names uses

/-- A statement under a guard means the same. -/
theorem lowerWhen_executes (is : setting.program.ast.StmtIs id (.whenTrue guard body))
    (executesBody : ExecutesStmts setting level scope first [body] count loop flow bodyFlow trueStep) :
    ExecutesStmts setting level scope first [id] count loop flow flow
      (lowerWhen setting.program guard trueStep) := by
  intro before valid binds reaches
  rw [builds_lowerWhen]
  refine (separate.expression_computes valid binds names first_le runsCalls).mono ?_ fun _ => False.elim
  rintro condition split ⟨gives, guardComputes⟩
  have splitValid := valid.of_grows gives.grows
  have started := gives.grows.splitTwo splitValid .whenThen .whenEnd gives.below
  have awaits := Builder.Awaits.splitTwo splitValid .whenThen .whenEnd condition
  have startedValid := valid.of_grows started
  refine (executesBody _ startedValid (binds.of_locals_eq (by simp [gives.locals_eq]))
    (reaches.of_grows started)).mono ?_ fun _ always => always
  rintro _ joined ⟨settles, houses, bodyExecutes⟩
  replace awaits := awaits.of_grows settles.grows
  have all := started.trans settles.grows
  refine ⟨⟨all.leave awaits.fresh.lt_size awaits (Nat.le_succ_of_le gives.grows.size_le),
    settles.binds.of_locals_eq (joined.leave_locals _ _)⟩,
    fun rooms => (houses (rooms.of_grows started (by simp [gives.locals_eq]))).leave _ _, ?_⟩
  intro fuel fuel_le call frame last point world later completion bound reachable becomes targets_pos
    activation_eq stands knows yields
  have joinedBecomes := (Becomes.leave (valid.of_grows all).wellFormed _ _).trans becomes
  have startedBecomes := (settles.grows.becomes startedValid.wellFormed).trans joinedBecomes
  have splitBecomes := (Becomes.splitTwo splitValid _ _ condition).trans startedBecomes
  have fresh : (joined.leave (split.blocks.size + 1) (split.blocks.size + 1)).Fresh
      (split.blocks.size + 1) := awaits.fresh.branchTo awaits.elsewhere _
  have local_kept (declaration : DeclId) (value : Ir.Value)
      (found : before.local? declaration = some value) :
      (joined.leave (split.blocks.size + 1) (split.blocks.size + 1)).local? declaration =
        some value := by
    rw [Builder.local?, Builder.leave_locals]
    exact all.local_kept found
  obtain ⟨less, less_lt, yields⟩ := exists_execForm is yields
  obtain ⟨guardResult, turned, holds, guardYields, truth, yields⟩ := yields_guarded yields
  obtain ⟨guardPoint, guardArrives, guardShown⟩ := guardComputes less (less_lt.le.trans fuel_le) call
    frame point world turned guardResult splitBecomes stands
    (separate.named valid binds names (reachable ▸ uses)
      ((gives.grows.becomes valid.wellFormed).trans splitBecomes) activation_eq stands knows)
    guardYields
  have guardStands := guardArrives.stands stands
  obtain ⟨forkPoint, forks⟩ :=
    guardStands.splitTwo splitValid startedBecomes.includes guardShown truth
  cases holds with
  | false =>
      obtain ⟨same, rfl⟩ := yields_pure.1 yields
      cases same
      have enters := guardArrives.trans (forks.enter fresh rfl) le_rfl
      exact ⟨.refl before frame, .normal reachable enters
        (knows.advance enters.advances valid local_kept (.refl before frame))⟩
  | true =>
      have enters := guardArrives.trans (forks.enter
        (Builder.fresh_splitTwo splitValid .whenThen .whenEnd condition) rfl) le_rfl
      obtain ⟨follows, ends⟩ := bodyExecutes less (less_lt.le.trans fuel_le) call frame last forkPoint
        turned later completion bound reachable joinedBecomes targets_pos activation_eq
        (enters.stands stands) (knows.advance enters.advances valid
          (fun _ _ => started.local_kept) (.refl before frame))
        (yields_execSequence_singleton.2 yields)
      have followsBefore : Follows before frame last :=
        (Follows.refl before frame).trans follows fun _ _ => started.local_kept
      refine ⟨followsBefore, (ends.behind enters started.temporaries_le).onward ?_⟩
      intro _ final _ arrives _
      obtain ⟨lastPoint, leaves⟩ := ((arrives.stands stands).leave becomes.includes (Nat.succ_pos _)
        awaits.fresh.lt_size)
      have returns := arrives.trans (leaves.enter fresh rfl) le_rfl
      exact .normal reachable returns
        (knows.advance returns.advances valid local_kept followsBefore)

/-- A choice between two statements means the same. -/
theorem lowerIf_executes (is : setting.program.ast.StmtIs id (.ifElse guard body whenFalse))
    (executesTrue : ExecutesStmts setting level scope first [body] second loop flow bodyFlow trueStep)
    (executesFalse : ExecutesStmts setting level scope second [whenFalse] count loop flow falseFlow
      falseStep) :
    ExecutesStmts setting level scope first [id] count loop flow (bodyFlow.join falseFlow)
      (lowerIf setting.program guard trueStep falseStep) := by
  intro before valid binds reaches
  rw [builds_lowerIf]
  refine (separate.expression_computes valid binds names first_le runsCalls).mono ?_ fun _ => False.elim
  rintro condition split ⟨gives, guardComputes⟩
  have splitValid := valid.of_grows gives.grows
  have started := gives.grows.splitThree splitValid .ifThen .ifElse .ifEnd gives.below
  obtain ⟨awaitsElse, awaitsEnd⟩ := Builder.Awaits.splitThree splitValid .ifThen .ifElse .ifEnd
    condition
  have startedValid := valid.of_grows started
  refine (executesTrue _ startedValid (binds.of_locals_eq (by simp [gives.locals_eq]))
    (reaches.of_grows started)).mono ?_ fun _ always => always
  rintro _ turned ⟨settlesTrue, housesTrue, trueExecutes⟩
  replace awaitsElse := awaitsElse.of_grows settlesTrue.grows
  replace awaitsEnd := awaitsEnd.of_grows settlesTrue.grows
  have toTurned := started.trans settlesTrue.grows
  have endBound := awaitsEnd.fresh.lt_size
  have turnedGrows := toTurned.leave endBound awaitsElse (Nat.le_succ_of_le gives.grows.size_le)
  have turnedValid := valid.of_grows turnedGrows
  have elseFresh : (turned.leave (split.blocks.size + 2) (split.blocks.size + 1)).Fresh
      (split.blocks.size + 1) := (awaitsElse.branchTo (split.blocks.size + 2)).fresh
  refine (executesFalse _ turnedValid (settlesTrue.binds.of_locals_eq (turned.leave_locals _ _))
    (reaches.of_grows turnedGrows)).mono ?_ fun _ always => always
  rintro _ joined ⟨settlesFalse, housesFalse, falseExecutes⟩
  replace awaitsEnd := (awaitsEnd.leave _ (Nat.ne_of_lt (Nat.lt_succ_self _))).of_grows
    settlesFalse.grows
  have all := turnedGrows.trans settlesFalse.grows
  refine ⟨⟨all.leave awaitsEnd.fresh.lt_size awaitsEnd (Nat.le_add_right_of_le gives.grows.size_le),
    settlesFalse.binds.of_locals_eq (joined.leave_locals _ _)⟩, fun rooms => (housesFalse
      ((housesTrue (rooms.of_grows started (by simp [gives.locals_eq]))).leave _ _)).leave _ _, ?_⟩
  intro fuel fuel_le call frame last point world later completion bound reachable becomes targets_pos
    activation_eq stands knows yields
  have joinedBecomes := (Becomes.leave (valid.of_grows all).wellFormed _ _).trans becomes
  have elseBecomes := (settlesFalse.grows.becomes turnedValid.wellFormed).trans joinedBecomes
  have turnedBecomes := (Becomes.leave (valid.of_grows toTurned).wellFormed _ _).trans elseBecomes
  have startedBecomes := (settlesTrue.grows.becomes startedValid.wellFormed).trans turnedBecomes
  have splitBecomes := (Becomes.splitThree splitValid _ _ _ condition).trans startedBecomes
  set behind := joined.leave (split.blocks.size + 2) (split.blocks.size + 2)
  have fresh : behind.Fresh (split.blocks.size + 2) := awaitsEnd.fresh.branchTo awaitsEnd.elsewhere _
  have joined_kept (declaration : DeclId) (value : Ir.Value)
      (found : joined.local? declaration = some value) :
      behind.local? declaration = some value := by
    rw [Builder.local?, Builder.leave_locals]
    exact found
  have turned_kept (declaration : DeclId) (value : Ir.Value)
      (found : turned.local? declaration = some value) :
      behind.local? declaration = some value := by
    refine joined_kept declaration value (settlesFalse.grows.local_kept ?_)
    rw [Builder.local?, Builder.leave_locals]
    exact found
  obtain ⟨less, less_lt, yields⟩ := exists_execForm is yields
  obtain ⟨guardResult, chosen, holds, guardYields, truth, yields⟩ := yields_guarded yields
  obtain ⟨guardPoint, guardArrives, guardShown⟩ := guardComputes less (less_lt.le.trans fuel_le) call
    frame point world chosen guardResult splitBecomes stands
    (separate.named valid binds names (reachable ▸ uses)
      ((gives.grows.becomes valid.wellFormed).trans splitBecomes) activation_eq stands knows)
    guardYields
  have guardStands := guardArrives.stands stands
  obtain ⟨forkPoint, forks⟩ :=
    guardStands.splitThree splitValid startedBecomes.includes guardShown truth
  cases holds with
  | true =>
      have enters := guardArrives.trans (forks.enter
        (Builder.fresh_splitThree splitValid .ifThen .ifElse .ifEnd condition) rfl) le_rfl
      obtain ⟨follows, ends⟩ := trueExecutes less (less_lt.le.trans fuel_le) call frame last forkPoint
        chosen later completion bound reachable turnedBecomes targets_pos activation_eq
        (enters.stands stands) (knows.advance enters.advances valid
          (fun _ _ => started.local_kept) (.refl before frame))
        (yields_execSequence_singleton.2 yields)
      refine ⟨(Follows.refl before frame).trans follows fun _ _ => started.local_kept,
        (ends.behind enters started.temporaries_le).onward ?_⟩
      intro trueBound final trueReachable arrives trueKnows
      obtain ⟨lastPoint, leaves⟩ :=
        (arrives.stands stands).leave elseBecomes.includes (Nat.succ_pos _) endBound
      have toEnd : Arrives setting call turned.temporaries final (At call.last behind) later lastPoint :=
        leaves.enter fresh rfl
      have endKnows := trueKnows.advance toEnd.advances (valid.of_grows toTurned) turned_kept
        (.refl turned last)
      obtain ⟨joinedBound, joined_eq, subset⟩ := Flow.join_left trueReachable
      exact .normal joined_eq (arrives.trans toEnd toTurned.temporaries_le) (endKnows.subset subset)
  | false =>
      have enters : Arrives setting call before.temporaries point _ chosen forkPoint :=
        guardArrives.trans (forks.enter elseFresh rfl) le_rfl
      obtain ⟨follows, ends⟩ := falseExecutes less (less_lt.le.trans fuel_le) call frame last forkPoint
        chosen later completion bound reachable joinedBecomes targets_pos activation_eq
        (enters.stands stands) (knows.advance enters.advances valid
          (fun _ _ => turnedGrows.local_kept) (.refl before frame))
        (yields_execSequence_singleton.2 yields)
      refine ⟨(Follows.refl before frame).trans follows fun _ _ => turnedGrows.local_kept,
        (ends.behind enters turnedGrows.temporaries_le).onward ?_⟩
      intro falseBound final falseReachable arrives falseKnows
      obtain ⟨lastPoint, leaves⟩ :=
        (arrives.stands stands).leave becomes.includes (Nat.succ_pos _) awaitsEnd.fresh.lt_size
      have toEnd : Arrives setting call joined.temporaries final (At call.last behind) later lastPoint :=
        leaves.enter fresh rfl
      have endKnows := falseKnows.advance toEnd.advances (valid.of_grows all) joined_kept
        (.refl joined last)
      obtain ⟨joinedBound, joined_eq, subset⟩ := Flow.join_right falseReachable
      exact .normal joined_eq (arrives.trans toEnd all.temporaries_le) (endKnows.subset subset)

omit runsCalls first_le in
/-- The rounds of a loop mean the same, from the block that tests the guard on. -/
theorem rounds_execute {started tested entered turned behind : Builder} {condition : Ir.Value}
    {targets : LoopTargets} {bodyBlock : Nat}
    (is : setting.program.ast.StmtIs id (.whileTrue guard body)) (valid : started.Valid)
    (binds : Binds scope first started) (gives : GivesValue started condition tested)
    (guardComputes : Computes setting level guard started condition tested)
    (startFresh : started.Fresh targets.continueBlock)
    (startCurrent : started.current = some targets.continueBlock)
    (testedBecomes : (tested.endWith (.condBranch condition bodyBlock targets.breakBlock)).Becomes
      call.last)
    (entered_locals : entered.locals = started.locals)
    (entered_le : started.temporaries ≤ entered.temporaries) (enteredFresh : entered.Fresh bodyBlock)
    (enteredCurrent : entered.current = some bodyBlock)
    (bodyExecutes : Executes setting level (some targets) flow bodyFlow [body] entered turned)
    (turnedBecomes : turned.Becomes call.last)
    (leaves : (turned.leave targets.continueBlock targets.breakBlock).Includes call.last)
    (positive : 0 < targets.continueBlock ∧ 0 < bodyBlock ∧ 0 < targets.breakBlock)
    (bounds : targets.continueBlock < turned.blocks.size ∧ bodyBlock < call.last.blocks.size ∧
      targets.breakBlock < call.last.blocks.size)
    (behindFresh : behind.Fresh targets.breakBlock)
    (behindCurrent : behind.current = some targets.breakBlock)
    (local_kept : ∀ declaration value, started.local? declaration = some value →
      behind.local? declaration = some value)
    (reachable : flow = .reachable bound) :
    ∀ fuel ≤ level, ∀ (frame : Evaluation.Frame) (point : Point) (world : World),
      frame.activation = call.activation →
      Stands setting call (AtStart call.last targets.continueBlock) world point →
      Knows setting frame started point bound →
      Yields (execSequence (setting.program.evaluator setting.floats fuel).stmt frame [id]) world
        (completion, last) later →
      Follows started frame last ∧
        Ends setting call started.temporaries loop flow behind point last later completion := by
  intro fuel
  induction fuel using Nat.strongRecOn with
  | ind fuel induction =>
  intro fuel_le frame point world activation_eq stands knows yields
  obtain ⟨less, less_lt, yields⟩ := exists_execForm is yields
  obtain ⟨guardResult, guardWorld, holds, guardYields, truth, yields⟩ := yields_round yields
  have less_le := less_lt.le.trans fuel_le
  have atStart : Stands setting call (At call.last started) world point :=
    stands.reposition fun _ position => position.at startFresh startCurrent
  have testedValid := valid.of_grows gives.grows
  have entered_kept (declaration : DeclId) (value : Ir.Value)
      (found : started.local? declaration = some value) :
      entered.local? declaration = some value := by
    rwa [Builder.local?, entered_locals]
  obtain ⟨guardPoint, guardArrives, guardShown⟩ := guardComputes less less_le call frame point world
    guardWorld guardResult ((Becomes.endWith testedValid _).trans testedBecomes) atStart
    (separate.named valid binds names (reachable ▸ uses)
      ((gives.grows.becomes valid.wellFormed).trans
        ((Becomes.endWith testedValid _).trans testedBecomes)) activation_eq atStart knows)
    guardYields
  have guardStands := guardArrives.stands atStart
  obtain ⟨forkPoint, forks⟩ : ∃ forkPoint, Arrives setting call started.temporaries guardPoint
      (Entered call.last (if holds then bodyBlock else targets.breakBlock) tested.currentIndex)
      guardWorld forkPoint :=
    guardStands.condBranch guardShown truth positive.2.1 positive.2.2 bounds.2.1 bounds.2.2
      (guardStands.position.endWith testedBecomes.includes)
  cases holds with
  | false =>
      obtain ⟨rfl, rfl, rfl⟩ := yields
      have enters := guardArrives.trans (forks.enter behindFresh behindCurrent) le_rfl
      exact ⟨.refl started last, .normal reachable enters
        (knows.advance enters.advances valid local_kept (.refl started last))⟩
  | true =>
      obtain ⟨ending, next, middle, bodyYields, yields⟩ := yields
      have enters := guardArrives.trans (forks.enter enteredFresh enteredCurrent) le_rfl
      obtain ⟨follows, ends⟩ := bodyExecutes less less_le call frame next forkPoint guardWorld middle
        ending bound reachable turnedBecomes
        (by rintro _ ⟨rfl⟩; exact ⟨positive.1, positive.2.2⟩) activation_eq
        (enters.stands stands) (knows.advance enters.advances valid
          (entered_kept) (.refl started frame))
        (yields_execSequence_singleton.2 bodyYields)
      replace follows : Follows started frame next :=
        (Follows.refl started frame).trans follows entered_kept
      replace ends := ends.behind enters entered_le
      -- where the body ends normally or goes on with the loop, the rest of the loop has less fuel
      have goesOn {final : Point} (again : Yields
            ((setting.program.evaluator setting.floats less).stmt next id) middle (completion, last)
            later)
          (arrives : Arrives setting call started.temporaries point
            (AtStart call.last targets.continueBlock) middle final) :
          Follows started frame last ∧
            Ends setting call started.temporaries loop flow behind point last later completion := by
        obtain ⟨restFollows, restEnds⟩ := induction less less_lt less_le next final middle
          (follows.activation_eq.trans activation_eq) (arrives.stands stands)
          (knows.advance arrives.advances valid (fun _ _ found => found) follows)
          (yields_execSequence_singleton.2 again)
        exact ⟨follows.trans restFollows fun _ _ found => found, restEnds.behind arrives le_rfl⟩
      cases ends with
      | normal _ arrives _ =>
          obtain ⟨lastPoint, returns⟩ :=
            (arrives.stands stands).leave leaves positive.1 bounds.1
          exact goesOn yields ((arrives.trans returns le_rfl).reposition fun _ entered => entered.1)
      | continued within arrives =>
          cases within
          exact goesOn yields arrives
      | broken within arrives =>
          cases within
          obtain ⟨rfl, rfl, rfl⟩ := yields
          have ends' := arrives.reposition fun _ position => position.at behindFresh behindCurrent
          exact ⟨follows, .normal reachable ends'
            (knows.advance ends'.advances valid local_kept follows)⟩
      | returned runs layout_le agrees same =>
          obtain ⟨rfl, rfl, rfl⟩ := yields
          exact ⟨follows, .returned runs layout_le agrees same⟩

/-- A loop means the same. -/
theorem lowerWhile_executes {step : LoopTargets → Build Unit}
    (is : setting.program.ast.StmtIs id (.whileTrue guard body))
    (executesBody : ∀ targets, ExecutesStmts setting level scope first [body] count (some targets) flow
      bodyFlow (step targets)) :
    ExecutesStmts setting level scope first [id] count loop flow flow
      (lowerWhile setting.program guard step) := by
  intro before valid binds _
  rw [builds_lowerWhile]
  have started := Grows.refl.startLoop valid
  obtain ⟨awaitsBody, awaitsEnd⟩ := Builder.Awaits.startLoop valid
  have startedValid := valid.of_grows started
  have startedBinds := binds.of_locals_eq before.startLoop_locals
  refine (separate.expression_computes startedValid startedBinds names first_le runsCalls).mono ?_
    fun _ => False.elim
  rintro condition tested ⟨gives, guardComputes⟩
  replace awaitsBody := awaitsBody.of_grows gives.grows
  replace awaitsEnd := awaitsEnd.of_grows gives.grows
  have toTested := started.trans gives.grows
  have testedValid := valid.of_grows toTested
  have bodyBound := awaitsBody.fresh.lt_size
  have endBound := awaitsEnd.fresh.lt_size
  have closed := toTested.endWith
    (.condBranch condition (before.blocks.size + 1) (before.blocks.size + 2))
    (by simpa [Ir.Terminator.operands] using gives.below)
    (by
      rw [Ir.Terminator.successors, List.forall_mem_cons, List.forall_mem_singleton]
      exact ⟨bodyBound, endBound⟩)
  replace awaitsBody := awaitsBody.endWith
    (.condBranch condition (before.blocks.size + 1) (before.blocks.size + 2))
  replace awaitsEnd := awaitsEnd.endWith
    (.condBranch condition (before.blocks.size + 1) (before.blocks.size + 2))
  have entered := closed.enter awaitsBody (Nat.le_succ _)
  have bodyFresh := awaitsBody.fresh
  replace awaitsEnd := awaitsEnd.goTo (Nat.ne_of_lt (Nat.lt_succ_self (before.blocks.size + 1)))
  have endBound' := awaitsEnd.fresh.lt_size
  refine (executesBody ⟨before.blocks.size, before.blocks.size + 2⟩ _ (valid.of_grows entered)
    (binds.of_locals_eq (by simp [gives.locals_eq])) ?_).mono ?_ fun _ always => always
  · rintro _ ⟨rfl⟩
    exact ⟨Nat.lt_of_succ_lt (Nat.lt_of_succ_lt endBound'), endBound'⟩
  rintro _ turned ⟨settles, houses, bodyExecutes⟩
  replace awaitsEnd := awaitsEnd.of_grows settles.grows
  have all := entered.trans settles.grows
  have loopBound := Nat.lt_of_succ_lt (Nat.lt_of_succ_lt awaitsEnd.fresh.lt_size)
  refine ⟨⟨all.leave loopBound awaitsEnd (Nat.le_add_right _ _),
    settles.binds.of_locals_eq (turned.leave_locals _ _)⟩,
    fun rooms => (houses (rooms.of_grows entered (by simp [gives.locals_eq]))).leave _ _, ?_⟩
  intro fuel fuel_le call frame last point world later completion bound reachable becomes targets_pos
    activation_eq stands knows yields
  have turnedBecomes := (Becomes.leave (valid.of_grows all).wellFormed _ _).trans becomes
  have enteredBecomes := (settles.grows.becomes (valid.of_grows entered).wellFormed).trans turnedBecomes
  have closedBecomes := (Becomes.goTo _ _).trans enteredBecomes
  have startedBecomes := ((gives.grows.becomes startedValid.wellFormed).trans
    (Becomes.endWith testedValid _)).trans closedBecomes
  have enteredFresh : ((tested.endWith (.condBranch condition (before.blocks.size + 1)
      (before.blocks.size + 2))).goTo (before.blocks.size + 1)).Fresh (before.blocks.size + 1) :=
    bodyFresh
  have endFresh : (turned.leave before.blocks.size (before.blocks.size + 2)).Fresh
      (before.blocks.size + 2) := awaitsEnd.fresh.branchTo awaitsEnd.elsewhere _
  have local_kept (declaration : DeclId) (value : Ir.Value)
      (found : before.startLoop.local? declaration = some value) :
      (turned.leave before.blocks.size (before.blocks.size + 2)).local? declaration =
        some value := by
    rw [Builder.local?, before.startLoop_locals] at found
    rw [Builder.local?, Builder.leave_locals]
    exact all.local_kept found
  obtain ⟨startPoint, starts⟩ := stands.startLoop valid startedBecomes.includes
  have toStart : Arrives setting call before.temporaries point
      (AtStart call.last before.blocks.size) world startPoint :=
    starts.reposition fun _ entered => entered.1
  obtain ⟨follows, ends⟩ := rounds_execute separate names uses is startedValid
    startedBinds gives guardComputes (Builder.fresh_startLoop valid) rfl closedBecomes (by simp [gives.locals_eq])
    (by simpa using gives.grows.temporaries_le) enteredFresh rfl
    bodyExecutes turnedBecomes becomes.includes ⟨stands.position.size_pos, Nat.succ_pos _, Nat.succ_pos _⟩
    ⟨loopBound, enteredBecomes.includes.lt_size enteredFresh.lt_size,
      becomes.includes.lt_size endFresh.lt_size⟩ endFresh rfl local_kept reachable
    fuel fuel_le frame startPoint world activation_eq (toStart.stands stands)
    (knows.advance toStart.advances valid (fun _ _ => started.local_kept) (.refl before frame)) yields
  exact ⟨(Follows.refl before frame).trans follows fun _ _ => started.local_kept,
    ends.behind toStart started.temporaries_le⟩

end Guards

end Forms

section Leaves

variable {id : StmtId}

/-- Behind an expression that a statement evaluates, a machine holds what it evaluates to. -/
theorem Separate.expression_arrives (separate : Separate setting.program scope next)
    (valid : before.Valid) (binds : Binds scope count before) {expression : ExprId}
    (names : setting.program.ast.Names (scope.Visible count) expression)
    (uses : setting.program.usesBound flow expression = true) {value : Ir.Value}
    (gives : GivesValue before value after)
    (computes : Computes setting level expression before value after) (reachable : flow = .reachable bound)
    {fuel : Nat} (fuel_le : fuel ≤ level) (becomes : after.Becomes call.last)
    (activation_eq : frame.activation = call.activation)
    (stands : Stands setting call (At call.last before) world point)
    (knows : Knows setting frame before point bound) {result : Result}
    (yields : Yields ((setting.program.evaluator setting.floats fuel).expr frame expression) world
      result later) :
    ∃ final, Arrives setting call before.temporaries point (At call.last after) later final ∧
      final.Shows setting.program value result := by
  subst reachable
  refine computes fuel fuel_le call frame point world later result becomes stands ?_ yields
  exact separate.named valid binds names uses ((gives.grows.becomes valid.wellFormed).trans becomes)
    activation_eq stands knows

/-- A jump means the same. -/
theorem lowerJump_executes {target : LoopTargets → Nat} {location : Location} {error : SemanticError}
    {form : Stmt} (is : setting.program.ast.StmtIs id form)
    (isJump : (form = .breakLoop location ∧ target = LoopTargets.breakBlock) ∨
      form = .continueLoop location ∧ target = LoopTargets.continueBlock) :
    ExecutesStmts setting level scope count [id] count loop flow .unreachable
      (lowerJump loop target location error) := by
  intro before valid binds reaches
  cases loop with
  | none => trivial
  | some targets =>
      rw [lowerJump, builds_terminate]
      have target_lt : target targets < before.blocks.size := by
        obtain ⟨continue_lt, break_lt⟩ := reaches targets rfl
        rcases isJump with ⟨_, rfl⟩ | ⟨_, rfl⟩
        · exact break_lt
        · exact continue_lt
      have grows : before.Grows (before.endWith (.branch (target targets))) := by
        refine Grows.refl.endWith _ (by simp [Ir.Terminator.operands]) ?_
        rw [Ir.Terminator.successors, List.forall_mem_singleton]
        exact target_lt
      refine ⟨⟨grows, binds.of_locals_eq (before.endWith_locals _)⟩,
        fun rooms => rooms.of_grows grows (before.endWith_locals _), ?_⟩
      intro fuel fuel_le call frame last point world later completion bound reachable becomes
        targets_pos activation_eq stands knows yields
      have target_pos : 0 < target targets := by
        obtain ⟨continue_pos, break_pos⟩ := targets_pos targets rfl
        rcases isJump with ⟨_, rfl⟩ | ⟨_, rfl⟩
        · exact break_pos
        · exact continue_pos
      obtain ⟨final, jumps⟩ := stands.branch target_pos
        (((Becomes.endWith valid _).trans becomes).includes.lt_size target_lt)
        (stands.position.endWith becomes.includes)
      have arrives : Arrives setting call before.temporaries point
          (AtStart call.last (target targets)) world final :=
        jumps.reposition fun _ entered => entered.1
      obtain ⟨less, less_lt, yields⟩ := exists_execForm is yields
      rcases isJump with ⟨rfl, rfl⟩ | ⟨rfl, rfl⟩
      · obtain ⟨same, rfl⟩ := yields_pure.1 yields
        cases same
        exact ⟨.refl before frame, .broken rfl arrives⟩
      · obtain ⟨same, rfl⟩ := yields_pure.1 yields
        cases same
        exact ⟨.refl before frame, .continued rfl arrives⟩

section Evaluated

variable (separate : Separate setting.program scope next)
  (runsCalls : ∀ fuel < level, RunsCalls setting fuel)

include separate runsCalls

/-- A return means the same. -/
theorem lowerReturn_executes (type : Ir.ValueType) {expression : ExprId} (first_le : first ≤ next)
    (names : setting.program.ast.Names (scope.Visible first) expression)
    (uses : setting.program.usesBound flow expression = true)
    (is : setting.program.ast.StmtIs id (.returnValue expression)) :
    ExecutesStmts setting level scope first [id] first loop flow .unreachable (do
      let value ← lowerExpr setting.program expression
      terminate (.ret type value)) := by
  intro before valid binds _
  rw [builds_bind]
  refine (separate.expression_computes valid binds names first_le runsCalls).mono ?_ fun _ => False.elim
  rintro value after ⟨gives, computes⟩
  rw [builds_terminate]
  have grows : before.Grows (after.endWith (.ret type value)) := by
    refine gives.grows.endWith _ ?_ (by simp [Ir.Terminator.successors])
    rw [Ir.Terminator.operands, List.forall_mem_singleton]
    exact gives.below
  have locals_eq := (after.endWith_locals (.ret type value)).trans gives.locals_eq
  refine ⟨⟨grows, binds.of_locals_eq locals_eq⟩, fun rooms => rooms.of_grows grows locals_eq, ?_⟩
  intro fuel fuel_le call frame last point world later completion bound reachable becomes _
    activation_eq stands knows yields
  obtain ⟨less, less_lt, yields⟩ := exists_execForm is yields
  rw [execForm, yields_bind] at yields
  obtain ⟨result, _, resultYields, yields⟩ := yields
  obtain ⟨same, rfl⟩ := yields_pure.1 yields
  cases same
  obtain ⟨final, arrives, word, held, same⟩ := separate.expression_arrives valid binds names uses gives
    computes reachable (less_lt.le.trans fuel_le)
    ((Becomes.endWith (valid.of_grows gives.grows) _).trans becomes) activation_eq stands knows
    resultYields
  obtain ⟨rest_eq, body, found, terminator_eq⟩ := arrives.position.endWith becomes.includes
  refine ⟨.refl before frame, .returned (.tail arrives.advances.runs ?_) arrives.advances.layout_le
    arrives.agrees same⟩
  rw [Ir.Module.step_terminator rest_eq found, terminator_eq, Ir.Terminator.run, held]
  rfl

/-- An expression that is evaluated for its effects means the same. -/
theorem lowerExpression_executes {expression : ExprId} (first_le : first ≤ next)
    (names : setting.program.ast.Names (scope.Visible first) expression)
    (uses : setting.program.usesBound flow expression = true)
    (is : setting.program.ast.StmtIs id (.expression expression)) :
    ExecutesStmts setting level scope first [id] first loop flow flow (do
      let _ ← lowerExpr setting.program expression) := by
  intro before valid binds _
  rw [builds_bind]
  refine (separate.expression_computes valid binds names first_le runsCalls).mono ?_ fun _ => False.elim
  rintro value after ⟨gives, computes⟩
  rw [builds_pure]
  refine ⟨⟨gives.grows, binds.of_locals_eq gives.locals_eq⟩,
    fun rooms => rooms.of_grows gives.grows gives.locals_eq, ?_⟩
  intro fuel fuel_le call frame last point world later completion bound reachable becomes _
    activation_eq stands knows yields
  obtain ⟨less, less_lt, yields⟩ := exists_execForm is yields
  rw [execForm, yields_bind] at yields
  obtain ⟨result, _, resultYields, yields⟩ := yields
  obtain ⟨same, rfl⟩ := yields_pure.1 yields
  cases same
  obtain ⟨final, arrives, _⟩ := separate.expression_arrives valid binds names uses gives computes
    reachable (less_lt.le.trans fuel_le) becomes activation_eq stands knows resultYields
  exact ⟨.refl before frame, .normal reachable arrives (knows.behind gives valid arrives.advances)⟩

variable {kind : ObjectKind} {type : Ty} {initializer : ExprId}
  (is : setting.program.ast.StmtIs id (.declaration ⟨first⟩)) (first_lt : first < next)
  (behind : scope.function.index < first)
  (kind_eq : setting.program.ast.kindOf ⟨first⟩ = .object kind type (some initializer))
  (uses : setting.program.usesBound flow initializer = true)

include is first_lt behind kind_eq uses

/-- A declaration of a variable means the same. -/
theorem lowerVariable_executes (isVariable : kind = .var)
    (names : setting.program.ast.Names (scope.Visible (first + 1)) initializer) :
    ExecutesStmts setting level scope first [id] (first + 1) loop flow (flow.declare ⟨first⟩)
      (lowerLocal setting.program ⟨first⟩) := by
  intro before valid binds _
  have unbound := binds.unbound (separate.not_parameter kind_eq)
  rw [isVariable] at kind_eq
  rw [builds_lowerLocal_of_variable kind_eq]
  set declared := (before.addAlloca (.ofTy type)).bind ⟨first⟩ (.temp before.temporaries)
  have declaredGrows : before.Grows declared :=
    .bind (.addAlloca _ .refl) unbound (Nat.lt_succ_self _)
  have bound := (binds.of_locals_eq (before.addAlloca_locals (.ofTy type))).bind behind
    (.temp before.temporaries)
  have declaredValid := valid.of_grows declaredGrows
  refine (separate.expression_computes declaredValid bound names first_lt runsCalls).mono ?_
    fun _ => False.elim
  rintro value after ⟨gives, computes⟩
  have afterValid := declaredValid.of_grows gives.grows
  have slotBelow : before.temporaries < after.temporaries :=
    Nat.lt_of_lt_of_le (Nat.lt_succ_self _) gives.grows.temporaries_le
  have storedGrows : declared.Grows
      (after.perform (.store (.ofTy type) value (.temp before.temporaries))) := by
    refine gives.grows.performed ?_
    simp only [Ir.Operation.operands, List.forall_mem_cons]
    exact ⟨gives.below, slotBelow, by simp⟩
  have stored_locals := (after.perform_locals
    (.store (.ofTy type) value (.temp before.temporaries))).trans gives.locals_eq
  refine ⟨⟨declaredGrows.trans storedGrows, bound.of_locals_eq stored_locals⟩, fun rooms => ?_, ?_⟩
  · refine (rooms.bind declaredGrows.allocas_le ?_ (Nat.lt_succ_self _) rfl).of_grows storedGrows
      stored_locals
    simp [declared, Builder.addAlloca]
  intro fuel fuel_le call frame last point world later completion known reachable becomes _
    activation_eq stands knows yields
  have afterBecomes := (Becomes.perform afterValid _).trans becomes
  have declaredBecomes := (gives.grows.becomes declaredValid.wellFormed).trans afterBecomes
  obtain ⟨less, less_lt, yields⟩ := exists_execForm is yields
  obtain ⟨result, middle, resultYields, rfl, rfl, rfl⟩ := yields_variable kind_eq yields
  have declaredStands : Stands setting call (At call.last declared) world point :=
    stands.reposition fun _ position => position.of_eq rfl rfl
  have declaredKnows : Knows setting last declared point known :=
    knows.advance (.refl point : Advances setting call _ point point) valid (fun _ _ => declaredGrows.local_kept)
      (.refl before last)
  obtain ⟨final, arrives, shown⟩ := separate.expression_arrives declaredValid bound names uses gives
    computes reachable (less_lt.le.trans fuel_le) afterBecomes activation_eq declaredStands
    declaredKnows resultYields
  have isLocal : call.last.local? ⟨first⟩ = some (.temp before.temporaries) :=
    declaredBecomes.local_kept _ _ (by simp [declared, Builder.local?])
  obtain ⟨_, address, same, _, held, placed⟩ :=
    (arrives.stands declaredStands).slots ⟨first⟩ _ (by rw [kind_eq]; rfl) isLocal
  cases same
  rw [← activation_eq] at placed
  obtain ⟨stored, stores⟩ := (arrives.stands declaredStands).store
    becomes.includes ⟨.place address, held, .place placed⟩ shown
  have goes := (arrives.trans stores gives.grows.temporaries_le).mono
    (Nat.le_succ before.temporaries)
  refine ⟨.refl before last, .normal (by rw [reachable]; rfl) goes ?_⟩
  rintro declaration member isConstant
  rcases List.mem_cons.1 member with rfl | member
  · rw [kind_eq] at isConstant
    cases isConstant
  · exact knows.advance goes.advances valid (fun declaration other found => by
      rw [Builder.local?, Builder.perform_locals, gives.locals_eq]
      exact declaredGrows.local_kept found) (.refl before last) declaration member isConstant

/-- A declaration of a constant means the same. -/
theorem lowerConstant_executes (isConstant : kind ≠ .var)
    (names : setting.program.ast.Names (scope.Visible first) initializer) :
    ExecutesStmts setting level scope first [id] (first + 1) loop flow (flow.declare ⟨first⟩)
      (lowerLocal setting.program ⟨first⟩) := by
  intro before valid binds _
  rw [builds_lowerLocal_of_constant isConstant kind_eq]
  refine (separate.expression_computes valid binds names first_lt.le runsCalls).mono ?_
    fun _ => False.elim
  rintro value after ⟨gives, computes⟩
  have same := binds.of_locals_eq gives.locals_eq
  have unbound := same.unbound (separate.not_parameter kind_eq)
  have boundGrows : before.Grows (after.bind ⟨first⟩ value) := .bind gives.grows unbound gives.below
  have notVariable : (setting.program.ast.kindOf ⟨first⟩).isVariable = false := by
    rw [kind_eq]
    cases kind with
    | var => exact absurd rfl isConstant
    | const | value => rfl
  refine ⟨⟨boundGrows, same.bind behind value⟩, fun rooms =>
    (rooms.of_grows gives.grows gives.locals_eq).bindConstant value notVariable, ?_⟩
  intro fuel fuel_le call frame last point world later completion known reachable becomes _
    activation_eq stands knows yields
  have afterBecomes : after.Becomes call.last :=
    ((Grows.refl.bind unbound gives.below).becomes
      (valid.of_grows gives.grows).wellFormed).trans becomes
  obtain ⟨less, less_lt, yields⟩ := exists_execForm is yields
  obtain ⟨result, resultYields, rfl, rfl⟩ := yields_constant isConstant kind_eq yields
  obtain ⟨final, arrives, shown⟩ := separate.expression_arrives valid binds names uses gives computes
    reachable (less_lt.le.trans fuel_le) afterBecomes activation_eq stands knows resultYields
  have follows : Follows before frame (frame.declare ⟨first⟩ result) := by
    refine ⟨rfl, fun declaration isLocal => if_neg ?_⟩
    rintro rfl
    rw [binds.unbound (separate.not_parameter kind_eq)] at isLocal
    cases isLocal
  have goes : Arrives setting call before.temporaries point
      (At call.last (after.bind ⟨first⟩ value)) later final :=
    arrives.reposition fun _ position => position.of_eq rfl rfl
  refine ⟨follows, .normal (by rw [reachable]; rfl) goes ?_⟩
  intro declaration member constant
  rcases List.mem_cons.1 member with rfl | member
  · refine ⟨value, by simp [Builder.local?], fun other found => ?_⟩
    rw [Evaluation.Frame.declare_constants, if_pos rfl, Option.some.injEq] at found
    exact found ▸ shown
  · exact knows.advance goes.advances valid (fun _ _ => boundGrows.local_kept) follows declaration
      member constant

end Evaluated

end Leaves

/-- Statements one after another mean the same. -/
theorem ExecutesStmts.cons {id : StmtId} {rest : List StmtId} {flow'' : Flow}
    {step steps : Build Unit} {middleCount lastCount : Nat}
    (executesFirst : ExecutesStmts setting level scope first [id] middleCount loop flow flow' step)
    (executesRest : ExecutesStmts setting level scope middleCount rest lastCount loop flow' flow''
      steps) :
    ExecutesStmts setting level scope first (id :: rest) lastCount loop flow flow''
      (do step; steps) := by
  intro before valid binds reaches
  rw [builds_bind]
  refine (executesFirst before valid binds reaches).mono ?_ fun _ always => always
  rintro _ middle ⟨settles, houses, firstExecutes⟩
  have middleValid := valid.of_grows settles.grows
  refine (executesRest middle middleValid settles.binds (reaches.of_grows settles.grows)).mono ?_
    fun _ always => always
  rintro _ after ⟨restSettles, restHouses, restExecutes⟩
  refine ⟨restSettles.behind settles.grows, fun rooms => restHouses (houses rooms), ?_⟩
  intro fuel fuel_le call frame last point world later completion bound reachable becomes targets_pos
    activation_eq stands knows yields
  have middleBecomes := (restSettles.grows.becomes middleValid.wellFormed).trans becomes
  obtain ⟨between, turned, firstYields, restYields⟩ | ⟨yields, abrupt⟩ :=
    yields_execSequence_cons yields
  · obtain ⟨follows, ends⟩ := firstExecutes fuel fuel_le call frame between point world turned .normal
      bound reachable middleBecomes targets_pos activation_eq stands knows firstYields
    obtain @⟨middleBound, final, middleReachable, arrives, middleKnows⟩ := ends
    obtain ⟨restFollows, restEnds⟩ := restExecutes fuel fuel_le call between last final turned later
      completion middleBound middleReachable becomes targets_pos
      (follows.activation_eq.trans activation_eq) (arrives.stands stands) middleKnows restYields
    exact ⟨follows.trans restFollows fun _ _ => settles.grows.local_kept,
      restEnds.behind arrives settles.grows.temporaries_le⟩
  · obtain ⟨follows, ends⟩ := firstExecutes fuel fuel_le call frame last point world later completion
      bound reachable middleBecomes targets_pos activation_eq stands knows yields
    refine ⟨follows, ?_⟩
    cases ends with
    | normal => exact absurd rfl abrupt
    | broken within arrives => exact .broken within arrives
    | continued within arrives => exact .continued within arrives
    | returned runs layout_le agrees same => exact .returned runs layout_le agrees same

/-- Every form of statement whose constants are bound means the same if its parts do. -/
theorem followsForms_executes (separate : Separate setting.program scope next)
    (runsCalls : ∀ fuel < level, RunsCalls setting fuel) (result : Ir.ValueType) :
    FollowsForms setting.program scope.Visible result fun first statements last loop step =>
      ∀ fuel flow flow',
        Program.flowSequence (setting.program.flowStmtWithin fuel) flow statements = some flow' →
        scope.function.index < first → last ≤ next →
        ExecutesStmts setting level scope first statements last loop flow flow' step where
  nil first loop := by
    rintro fuel flow flow' ⟨rfl⟩ behind last_le before valid binds reaches
    refine ⟨⟨.refl, binds⟩, fun rooms => rooms, ?_⟩
    intro _ _ call frame last point world later completion bound reachable _ _ _ stands knows yields
    obtain ⟨same, rfl⟩ := yields_pure.1 yields
    cases same
    exact ⟨.refl before frame, .normal reachable (.refl stands) knows⟩
  cons first_le middle_le executesFirst executesRest := by
    intro fuel flow flow' flows behind last_le
    obtain ⟨between, firstFlows, restFlows⟩ := Option.bind_eq_some_iff.1 flows
    replace firstFlows := (Program.flowSequence_singleton _ _ _).trans firstFlows
    exact (executesFirst fuel flow between firstFlows behind (middle_le.trans last_le)).cons
      (executesRest fuel between flow' restFlows (behind.trans_le first_le) last_le)
  block is executesInner := by
    intro fuel flow flow' flows behind last_le before valid binds reaches
    obtain ⟨less, flows⟩ := exists_flowForm is flows
    refine (executesInner less flow flow' flows behind last_le before valid binds reaches).mono ?_
      fun _ always => always
    rintro _ after ⟨settles, houses, executes⟩
    refine ⟨settles, houses, ?_⟩
    intro fuel fuel_le call frame last point world later completion bound reachable becomes
      targets_pos activation_eq stands knows yields
    obtain ⟨less, less_lt, yields⟩ := exists_execForm is yields
    exact executes less (less_lt.le.trans fuel_le) call frame last point world later completion bound
      reachable becomes targets_pos activation_eq stands knows yields
  whenTrue is names first_le executesBody := by
    intro fuel flow flow' flows behind last_le
    obtain ⟨less, flows⟩ := exists_flowForm is flows
    obtain ⟨uses, flows⟩ := Option.ite_none_right_eq_some.1 flows
    obtain ⟨bodyFlow, bodyFlows, rfl⟩ := Option.map_eq_some_iff.1 flows
    replace bodyFlows := (Program.flowSequence_singleton _ _ _).trans bodyFlows
    exact lowerWhen_executes separate runsCalls (first_le.trans last_le) names uses is
      (executesBody less flow bodyFlow bodyFlows behind last_le)
  ifElse is names first_le second_le executesTrue executesFalse := by
    intro fuel flow flow' flows behind last_le
    obtain ⟨less, flows⟩ := exists_flowForm is flows
    obtain ⟨uses, flows⟩ := Option.ite_none_right_eq_some.1 flows
    obtain ⟨trueFlow, trueFlows, flows⟩ := Option.bind_eq_some_iff.1 flows
    obtain ⟨falseFlow, falseFlows, rfl⟩ := Option.map_eq_some_iff.1 flows
    replace trueFlows := (Program.flowSequence_singleton _ _ _).trans trueFlows
    replace falseFlows := (Program.flowSequence_singleton _ _ _).trans falseFlows
    have second_le := second_le.trans last_le
    exact lowerIf_executes separate runsCalls (first_le.trans second_le) names uses is
      (executesTrue less flow trueFlow trueFlows behind second_le)
      (executesFalse less flow falseFlow falseFlows (behind.trans_le first_le) last_le)
  whileTrue is names first_le executesBody := by
    intro fuel flow flow' flows behind last_le
    obtain ⟨less, flows⟩ := exists_flowForm is flows
    obtain ⟨uses, flows⟩ := Option.ite_none_right_eq_some.1 flows
    obtain ⟨bodyFlow, bodyFlows, rfl⟩ := Option.map_eq_some_iff.1 flows
    replace bodyFlows := (Program.flowSequence_singleton _ _ _).trans bodyFlows
    exact lowerWhile_executes separate runsCalls (first_le.trans last_le) names uses is fun targets =>
      executesBody targets less flow bodyFlow bodyFlows behind last_le
  breakLoop is := by
    intro fuel flow flow' flows behind last_le
    obtain ⟨less, flows⟩ := exists_flowForm is flows
    cases flows
    exact lowerJump_executes is (.inl ⟨rfl, rfl⟩)
  continueLoop is := by
    intro fuel flow flow' flows behind last_le
    obtain ⟨less, flows⟩ := exists_flowForm is flows
    cases flows
    exact lowerJump_executes is (.inr ⟨rfl, rfl⟩)
  returnValue is names := by
    intro fuel flow flow' flows behind last_le
    obtain ⟨less, flows⟩ := exists_flowForm is flows
    obtain ⟨uses, flows⟩ := Option.ite_none_right_eq_some.1 flows
    cases flows
    exact lowerReturn_executes separate runsCalls result last_le names uses is
  declaration {first id kind type initializer loop} is kind_eq names := by
    intro fuel flow flow' flows behind last_le
    obtain ⟨less, flows⟩ := exists_flowForm is flows
    rw [Program.flowForm, kind_eq] at flows
    obtain ⟨uses, flows⟩ := Option.ite_none_right_eq_some.1 flows
    cases flows
    by_cases isVariable : kind = .var
    · rw [if_pos isVariable] at names
      exact lowerVariable_executes separate runsCalls is last_le behind kind_eq uses isVariable names
    · rw [if_neg isVariable] at names
      exact lowerConstant_executes separate runsCalls is last_le behind kind_eq uses isVariable names
  expression is names := by
    intro fuel flow flow' flows behind last_le
    obtain ⟨less, flows⟩ := exists_flowForm is flows
    obtain ⟨uses, flows⟩ := Option.ite_none_right_eq_some.1 flows
    cases flows
    exact lowerExpression_executes separate runsCalls last_le names uses is

/-- Scoped statements whose constants are bound mean the same. -/
theorem lowerSequence_executes (separate : Separate setting.program scope next)
    (runsCalls : ∀ fuel < level, RunsCalls setting fuel) (result : Ir.ValueType) {last : Nat}
    {statements : List StmtId}
    (inScope : setting.program.ast.Scoped scope.Visible first statements last)
    (behind : scope.function.index < first) (last_le : last ≤ next) (fuel : Nat)
    (enough : ∀ id ∈ statements, id.index < fuel) (flowFuel : Nat)
    (flows : Program.flowSequence (setting.program.flowStmtWithin flowFuel) flow statements =
      some flow')
    (loop : Option LoopTargets) :
    ExecutesStmts setting level scope first statements last loop flow flow'
      (lowerSequence (lowerStmtWithin setting.program result fuel loop) statements) :=
  (followsForms_executes separate runsCalls result).holds separate.coherent.sound inScope fuel enough
    loop flowFuel flow flow' flows behind last_le

end Minilang.Lowering
