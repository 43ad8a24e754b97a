import Minilang.Proofs.Lowering.Expressions
import Minilang.Proofs.Lowering.Operations
import Minilang.Proofs.Lowering.Simulation

/-!
# Lowered expressions mean the same

Where an expression of a program evaluates to a datum, a machine that runs what the expression has been
lowered to gets behind it, and the value of the expression holds that datum.
-/

namespace Minilang.Lowering

open Evaluation (Result World Eval Yields localResult? evalName evalAll evalLogical evalConditional
  evalKind yields_pure yields_bind yields_lift yields_read yields_write yields_evalLogical
  yields_evalConditional yields_evalBinary yields_evalConversion yields_evalAssignment
  yields_evalCall)
open Builder (Valid At AtStart Becomes)

variable {setting : Setting} {call : Call} {level : Nat} {before middle after : Builder}
  {frame : Evaluation.Frame} {point final : Point} {world later : World} {result : Result}
  {value : Ir.Value} {lower : ExprId → Build Ir.Value}

/-- Whether what a name of the function stands for is held by the value of the name. -/
def Named (setting : Setting) (frame : Evaluation.Frame) (builder : Builder) (point : Point)
    (declaration : DeclId) : Prop :=
  declaration ∉ setting.program.declarations →
    ∀ result, localResult? setting.program frame declaration = some result →
      ∃ value, builder.local? declaration = some value ∧ value.Below builder.temporaries ∧
        point.Shows setting.program value result

/-- Names go on holding what they stand for. -/
theorem Named.advance {declaration : DeclId} (named : Named setting frame before point declaration)
    (advances : Advances setting call before.temporaries point final)
    (locals_eq : after.locals = before.locals) (temporaries_le : before.temporaries ≤ after.temporaries) :
    Named setting frame after final declaration := by
  intro inside result found
  obtain ⟨value, isLocal, below, shown⟩ := named inside result found
  rw [Builder.local?, locals_eq]
  exact ⟨value, isLocal, below.mono temporaries_le, advances.shows shown below⟩

/-- Whether a machine gets from where building goes on to behind the value of an expression, wherever
evaluation with limited fuel succeeds. -/
def Computes (setting : Setting) (level : Nat) (id : ExprId) (before : Builder) (value : Ir.Value)
    (after : Builder) : Prop :=
  ∀ fuel ≤ level, ∀ (call : Call) (frame : Evaluation.Frame) (point : Point) (world later : World)
    (result : Result), after.Becomes call.last →
    Stands setting call (At call.last before) world point →
    setting.program.ast.Names (Named setting frame before point) id →
    Yields ((setting.program.evaluator setting.floats fuel).expr frame id) world result later →
    ∃ final, Arrives setting call before.temporaries point (At call.last after) later final ∧
      final.Shows setting.program value result

/-- Whether a machine gets behind the value of a form of expression, wherever its evaluation succeeds. -/
def ComputesKind (setting : Setting) (level : Nat) (kind : ExprKind) (before : Builder)
    (value : Ir.Value) (after : Builder) : Prop :=
  ∀ fuel < level, ∀ (call : Call) (frame : Evaluation.Frame) (point : Point) (world later : World)
    (result : Result), after.Becomes call.last →
    Stands setting call (At call.last before) world point →
    (∀ declaration, kind = .name declaration → Named setting frame before point declaration) →
    (∀ operand ∈ kind.operands, setting.program.ast.Names (Named setting frame before point) operand) →
    Yields (evalKind setting.program setting.floats (setting.program.evaluator setting.floats fuel) frame
      kind) world result later →
    ∃ final, Arrives setting call before.temporaries point (At call.last after) later final ∧
      final.Shows setting.program value result

/-- A function that lowers an expression, wherever its names are available, to what computes it. -/
def ComputesExpr (setting : Setting) (level : Nat) (lower : ExprId → Build Ir.Value) (id : ExprId) :
    Prop :=
  ∀ before : Builder, before.Valid →
    (∀ declaration ∈ setting.program.declarations, before.local? declaration = none) →
    setting.program.ast.Names (Available setting.program before) id →
    Builds (lower id) before
      (fun value after => GivesValue before value after ∧ Computes setting level id before value after)
      fun _ => False

/-- Whether a machine gets behind the values of expressions, wherever their evaluation succeeds. -/
def ComputesAll (setting : Setting) (level : Nat) (ids : List ExprId) (before : Builder)
    (values : List (Ir.ValueType × Ir.Value)) (after : Builder) : Prop :=
  ∀ fuel ≤ level, ∀ (call : Call) (frame : Evaluation.Frame) (point : Point) (world later : World)
    (results : List Result), after.Becomes call.last →
    Stands setting call (At call.last before) world point →
    (∀ id ∈ ids, setting.program.ast.Names (Named setting frame before point) id) →
    Yields (evalAll ((setting.program.evaluator setting.floats fuel).expr frame) ids) world results
      later →
    ∃ final, Arrives setting call before.temporaries point (At call.last after) later final ∧
      List.Forall₂ (final.Shows setting.program) (values.map Prod.snd) results

/-- Whether a machine runs the functions of a program to the results that they have with some fuel. -/
def RunsCalls (setting : Setting) (fuel : Nat) : Prop :=
  ∀ (layout : Layout) (world later : World) (memory : Ir.Memory) (id : DeclId)
    (results : List Result) (words : List Ir.Word) (result : Result)
    (callers : List (Ir.Frame × Option Nat)),
    id ∈ setting.program.declarations → (setting.program.ast.kindOf id).isFunction = true →
    List.Forall₂ (Matches setting.program layout) results words →
    Agrees setting.program layout world memory →
    Yields ((setting.program.evaluator setting.floats fuel).call id results) world result later →
    ∃ entered, setting.module.enter? (setting.program.ast.decl id).name words = some entered ∧
      ∃ layout' memory' word,
        setting.module.Runs setting.floats (.running entered callers memory)
          (.return word memory' callers) ∧
        layout.Extends layout' ∧ Agrees setting.program layout' later memory' ∧
        Matches setting.program layout' result word

theorem ComputesExpr.behind {id : ExprId} (computes : ComputesExpr setting level lower id)
    (valid : before.Valid)
    (unbound : ∀ declaration ∈ setting.program.declarations, before.local? declaration = none)
    (names : setting.program.ast.Names (Available setting.program before) id)
    (grows : before.Grows middle) (locals_eq : middle.locals = before.locals) :
    Builds (lower id) middle
      (fun value after => GivesValue middle value after ∧ Computes setting level id middle value after)
      fun _ => False := by
  refine computes middle (valid.of_grows grows) ?_ (available_of_locals_eq locals_eq ▸ names)
  intro declaration atTop
  rw [Builder.local?, locals_eq]
  exact unbound declaration atTop

/-- A literal means the same. -/
theorem computesKind_literal {kind : ExprKind} {constant : Ir.Constant}
    (evalKind_eq : ∀ evaluator frame, evalKind setting.program setting.floats evaluator frame kind =
      pure (.ofConstant constant))
    (same : ∀ layout, Matches setting.program layout (.ofConstant constant) (.ofConstant constant)) :
    ComputesKind setting level kind before (.const constant) before := by
  intro fuel _ call frame point world later result _ stands _ _ evaluates
  rw [evalKind_eq, yields_pure] at evaluates
  obtain ⟨rfl, rfl⟩ := evaluates
  exact ⟨point, .refl stands, _, rfl, same _⟩

/-- Operands that hold data hold words that match them. -/
theorem exists_values {values : List Ir.Value} {results : List Result}
    (shown : List.Forall₂ (point.Shows setting.program) values results) :
    ∃ words, point.frame.values values = some words ∧
      List.Forall₂ (Matches setting.program point.layout) results words := by
  induction shown with
  | nil => exact ⟨[], rfl, .nil⟩
  | cons first _ induction =>
      obtain ⟨word, held, same⟩ := first
      obtain ⟨words, restHeld, restSame⟩ := induction
      refine ⟨word :: words, ?_, .cons same restSame⟩
      rw [Ir.Frame.values, held, restHeld]
      rfl

section Forms

variable (valid : before.Valid)
  (unbound : ∀ declaration ∈ setting.program.declarations, before.local? declaration = none)

include valid unbound

/-- Both operands of a logical operator mean the same, the right one in a block of its own. -/
theorem lowerLogical_computes (isOr : Bool) {left right : ExprId}
    (computesLeft : ComputesExpr setting level lower left)
    (computesRight : ComputesExpr setting level lower right)
    (leftNames : setting.program.ast.Names (Available setting.program before) left)
    (rightNames : setting.program.ast.Names (Available setting.program before) right) :
    Builds (lowerLogical lower isOr left right) before
      (ComputesKind setting level (.binary (if isOr then .logicalOr else .logicalAnd) left right) before)
      fun _ => False := by
  rw [builds_lowerLogical]
  refine (computesLeft before valid unbound leftNames).mono ?_ fun _ => id
  rintro leftValue split ⟨givesLeft, leftComputes⟩
  have splitValid := valid.of_grows givesLeft.grows
  have started := givesLeft.grows.splitLogical splitValid isOr givesLeft.below
  have locals_eq : (split.splitLogical isOr leftValue).locals = before.locals := by
    simp [givesLeft.locals_eq]
  refine (computesRight.behind valid unbound rightNames started locals_eq).mono ?_ fun _ => id
  rintro rightValue joined ⟨givesRight, rightComputes⟩
  have joinedValid := valid.of_grows (started.trans givesRight.grows)
  have awaits := ((Builder.Awaits.splitLogical splitValid isOr leftValue).of_grows
    givesRight.grows).resume
  have joinedGrows := (started.trans givesRight.grows).resume.leave awaits.fresh.lt_size awaits
    (Nat.le_succ_of_le givesLeft.grows.resume.size_le)
  have fallsThrough : split.currentIndex ≠ joined.currentIndex := by
    have split_lt := splitValid.resume.current_lt split.resume_current
    rcases givesRight.grows.resume.current_new joined.resume_current with same | new
    · rw [Builder.splitLogical_current, Option.some.injEq] at same
      omega
    · have := (Builder.fresh_splitLogical splitValid isOr leftValue).lt_size
      omega
  rw [builds_emit]
  intro fuel fuel_lt call frame point world later result becomes stands _ names evaluates
  set last := joined.resume.leave (split.resume.blocks.size + 1) (split.resume.blocks.size + 1)
  have fresh : last.Fresh (split.resume.blocks.size + 1) :=
    awaits.fresh.branchTo awaits.elsewhere _
  have lastBecomes := (Becomes.emit (valid.of_grows joinedGrows) _).trans becomes
  have joinedBecomes := (Becomes.leave joinedValid.resume.wellFormed _ _).trans lastBecomes
  have splitBecomes := ((givesRight.grows.resume.becomes
    (splitValid.of_grows (.splitLogical splitValid isOr .refl givesLeft.below)).wellFormed)).trans
    joinedBecomes
  rw [ExprKind.operands, List.forall_mem_cons, List.forall_mem_singleton] at names
  replace evaluates : Yields (evalLogical
      ((setting.program.evaluator setting.floats fuel).expr frame) isOr left right) world result
      later := by
    cases isOr <;> exact evaluates
  obtain ⟨leftResult, turned, decided, leftYields, truth, evaluates⟩ := yields_evalLogical evaluates
  obtain ⟨leftPoint, leftArrives, leftShown⟩ := leftComputes fuel fuel_lt.le call frame point world
    turned leftResult ((Becomes.splitLogical splitValid isOr leftValue).trans splitBecomes) stands
    names.1 leftYields
  have leftStands := leftArrives.stands stands
  obtain ⟨forkPoint, forks⟩ := leftStands.splitLogical splitValid splitBecomes.includes leftShown truth
  by_cases isDecided : decided = isOr
  · rw [if_pos isDecided] at forks evaluates
    obtain ⟨rfl, rfl⟩ := evaluates
    have enters : Arrives setting call before.temporaries leftPoint (At call.last last) later
        forkPoint := forks.enter fresh rfl
    obtain ⟨final, emits, shown⟩ := (enters.stands leftStands).phi becomes.includes forks.position.2
      (List.find?_cons_of_pos (beq_self_eq_true _)) ⟨.bool isOr, rfl, .bool isOr⟩
    exact ⟨final, (leftArrives.trans enters le_rfl).trans emits joinedGrows.temporaries_le, shown⟩
  · rw [if_neg isDecided] at forks evaluates
    have enters : Arrives setting call before.temporaries leftPoint
        (At call.last (split.splitLogical isOr leftValue)) turned forkPoint :=
      forks.enter (Builder.fresh_splitLogical splitValid isOr leftValue) rfl
    have toFork := leftArrives.trans enters le_rfl
    obtain ⟨rightPoint, rightArrives, rightShown⟩ := rightComputes fuel fuel_lt.le call frame forkPoint
      turned later result ((Becomes.resume joined).trans joinedBecomes) (toFork.stands stands)
      (names.2.mono fun _ named => named.advance toFork.advances locals_eq started.temporaries_le)
      evaluates
    have found : (([(.const (.bool isOr), split.currentIndex), (rightValue, joined.currentIndex)] :
        List (Ir.Value × Nat)).find? fun source => source.2 == joined.currentIndex) =
        some (rightValue, joined.currentIndex) := by
      simp [fallsThrough]
    obtain ⟨final, meets, shown⟩ := (rightArrives.stands (toFork.stands stands)).meet
      lastBecomes.includes (Nat.succ_pos _) awaits.fresh.lt_size fresh rfl (by simp [last])
      becomes.includes found rightShown givesRight.below
    refine ⟨final, ?_, shown⟩
    exact (toFork.trans rightArrives started.temporaries_le).trans meets
      (started.trans givesRight.grows).temporaries_le

/-- All three parts of a choice mean the same, two of them in blocks of their own. -/
theorem lowerConditional_computes (type : Ir.ValueType) {guard whenTrue whenFalse : ExprId}
    (computesGuard : ComputesExpr setting level lower guard)
    (computesTrue : ComputesExpr setting level lower whenTrue)
    (computesFalse : ComputesExpr setting level lower whenFalse)
    (guardNames : setting.program.ast.Names (Available setting.program before) guard)
    (trueNames : setting.program.ast.Names (Available setting.program before) whenTrue)
    (falseNames : setting.program.ast.Names (Available setting.program before) whenFalse) :
    Builds (lowerConditional lower type guard whenTrue whenFalse) before
      (ComputesKind setting level (.conditional guard whenTrue whenFalse) before) fun _ => False := by
  rw [builds_lowerConditional]
  refine (computesGuard before valid unbound guardNames).mono ?_ fun _ => id
  rintro condition split ⟨givesGuard, guardComputes⟩
  have splitValid := valid.of_grows givesGuard.grows
  have started := givesGuard.grows.splitThree splitValid .condTrue .condFalse .condEnd
    givesGuard.below
  obtain ⟨awaitsFalse, awaitsEnd⟩ := Builder.Awaits.splitThree splitValid .condTrue .condFalse
    .condEnd condition
  have split_locals :
      (split.splitThree .condTrue .condFalse .condEnd condition).locals = before.locals := by
    simp [givesGuard.locals_eq]
  refine (computesTrue.behind valid unbound trueNames started split_locals).mono ?_ fun _ => id
  rintro trueValue turned ⟨givesTrue, trueComputes⟩
  have turnedValid := valid.of_grows (started.trans givesTrue.grows)
  replace awaitsFalse := (awaitsFalse.of_grows givesTrue.grows).resume
  replace awaitsEnd := (awaitsEnd.of_grows givesTrue.grows).resume
  have turnedGrows := (started.trans givesTrue.grows).resume.leave awaitsEnd.fresh.lt_size
    awaitsFalse (Nat.le_succ_of_le givesGuard.grows.size_le)
  have turned_lt := turnedValid.resume.current_lt turned.resume_current
  have turned_locals :
      (turned.resume.leave (split.blocks.size + 2) (split.blocks.size + 1)).locals =
        before.locals := by
    simp [givesTrue.locals_eq, givesGuard.locals_eq]
  refine (computesFalse.behind valid unbound falseNames turnedGrows turned_locals).mono ?_ fun _ => id
  rintro falseValue joined ⟨givesFalse, falseComputes⟩
  have joinedValid := valid.of_grows (turnedGrows.trans givesFalse.grows)
  have endBound := awaitsEnd.fresh.lt_size
  have falseFresh := (awaitsFalse.branchTo (split.blocks.size + 2)).fresh
  have elsewhere : turned.currentIndex ≠ joined.currentIndex := by
    rcases givesFalse.grows.resume.current_new joined.resume_current with same | new
    · rw [Builder.leave_current, Option.some.injEq] at same
      exact fun same' => awaitsFalse.elsewhere (by rw [turned.resume_current, same', same])
    · rw [Builder.leave, Builder.goTo_blocks, Builder.branchTo_size] at new
      omega
  replace awaitsEnd := ((awaitsEnd.leave _ (Nat.ne_of_lt (Nat.lt_succ_self _))).of_grows
    givesFalse.grows).resume
  have joinedGrows := (turnedGrows.trans givesFalse.grows).resume.leave awaitsEnd.fresh.lt_size
    awaitsEnd (Nat.le_add_right_of_le givesGuard.grows.size_le)
  rw [builds_emit]
  intro fuel fuel_lt call frame point world later result becomes stands _ names evaluates
  set last := joined.resume.leave (split.blocks.size + 2) (split.blocks.size + 2)
  have fresh : last.Fresh (split.blocks.size + 2) := awaitsEnd.fresh.branchTo awaitsEnd.elsewhere _
  have lastBecomes := (Becomes.emit (valid.of_grows joinedGrows) _).trans becomes
  have joinedBecomes := (Becomes.resume joined).trans
    ((Becomes.leave joinedValid.resume.wellFormed _ _).trans lastBecomes)
  have leaveBecomes := (givesFalse.grows.becomes (valid.of_grows turnedGrows).wellFormed).trans
    joinedBecomes
  have turnedBecomes := (Becomes.resume turned).trans
    ((Becomes.leave turnedValid.resume.wellFormed _ _).trans leaveBecomes)
  have splitBecomes := (givesTrue.grows.becomes (valid.of_grows started).wellFormed).trans
    turnedBecomes
  rw [ExprKind.operands, List.forall_mem_cons, List.forall_mem_cons, List.forall_mem_singleton] at names
  obtain ⟨guardResult, chosen, holds, guardYields, truth, evaluates⟩ :=
    yields_evalConditional evaluates
  obtain ⟨guardPoint, guardArrives, guardShown⟩ := guardComputes fuel fuel_lt.le call frame point
    world chosen guardResult ((Becomes.splitThree splitValid _ _ _ condition).trans splitBecomes)
    stands names.1 guardYields
  have guardStands := guardArrives.stands stands
  obtain ⟨forkPoint, forks⟩ := guardStands.splitThree splitValid splitBecomes.includes guardShown truth
  cases holds with
  | true =>
      have enters : Arrives setting call before.temporaries guardPoint
          (At call.last (split.splitThree .condTrue .condFalse .condEnd condition)) chosen forkPoint :=
        forks.enter (Builder.fresh_splitThree splitValid _ _ _ condition) rfl
      have toFork := guardArrives.trans enters le_rfl
      obtain ⟨truePoint, trueArrives, trueShown⟩ := trueComputes fuel fuel_lt.le call frame forkPoint
        chosen later result turnedBecomes (toFork.stands stands)
        (names.2.1.mono fun _ named => named.advance toFork.advances split_locals
          started.temporaries_le) evaluates
      obtain ⟨final, meets, shown⟩ := (trueArrives.stands (toFork.stands stands)).meet
        leaveBecomes.includes (Nat.succ_pos _) endBound fresh rfl
        (by simpa [last] using givesFalse.grows.temporaries_le) becomes.includes
        (List.find?_cons_of_pos (beq_self_eq_true _)) trueShown givesTrue.below
      exact ⟨final, (toFork.trans trueArrives started.temporaries_le).trans meets
        (started.trans givesTrue.grows).temporaries_le, shown⟩
  | false =>
      have enters : Arrives setting call before.temporaries guardPoint
          (At call.last (turned.resume.leave (split.blocks.size + 2) (split.blocks.size + 1))) chosen
          forkPoint :=
        forks.enter falseFresh rfl
      have toFork := guardArrives.trans enters le_rfl
      obtain ⟨falsePoint, falseArrives, falseShown⟩ := falseComputes fuel fuel_lt.le call frame
        forkPoint chosen later result joinedBecomes (toFork.stands stands)
        (names.2.2.mono fun _ named => named.advance toFork.advances turned_locals
          turnedGrows.temporaries_le) evaluates
      have found : (([(trueValue, turned.currentIndex), (falseValue, joined.currentIndex)] :
          List (Ir.Value × Nat)).find? fun source => source.2 == joined.currentIndex) =
          some (falseValue, joined.currentIndex) := by
        simp [elsewhere]
      obtain ⟨final, meets, shown⟩ := (falseArrives.stands (toFork.stands stands)).meet
        lastBecomes.includes (Nat.succ_pos _) awaitsEnd.fresh.lt_size fresh rfl (by simp [last])
        becomes.includes found falseShown givesFalse.below
      exact ⟨final, (toFork.trans falseArrives turnedGrows.temporaries_le).trans meets
        (turnedGrows.trans givesFalse.grows).temporaries_le, shown⟩

/-- A name means the same. A constant at the top means what its initializer means. -/
theorem lowerName_computes (coherent : setting.program.Coherent) {declaration : DeclId}
    (available : Available setting.program before declaration)
    (computes : ∀ initializer,
      (setting.program.ast.kindOf declaration).isConstant = true →
      (setting.program.ast.kindOf declaration).initializer? = some initializer →
      ComputesExpr setting level lower initializer) :
    Builds (lowerName setting.program lower declaration) before
      (ComputesKind setting level (.name declaration) before) fun _ => False := by
  cases available.form coherent with
  | bound found =>
      rw [builds_lowerName_of_local found]
      intro fuel _ call frame point world later result _ stands named _ evaluates
      have inside : declaration ∉ setting.program.declarations := fun atTop => by
        rw [unbound declaration atTop] at found
        cases found
      rw [evalKind, evalName, if_neg inside, yields_lift] at evaluates
      obtain ⟨means, rfl⟩ := evaluates
      obtain ⟨other, isLocal, _, shown⟩ := named declaration rfl inside result means
      rw [found] at isLocal
      cases isLocal
      exact ⟨point, .refl stands, shown⟩
  | function notLocal atTop kind_eq =>
      rw [builds_lowerName_of_function notLocal atTop kind_eq]
      intro fuel _ call frame point world later result _ stands _ _ evaluates
      rw [evalKind, evalName, if_pos atTop, kind_eq, yields_pure] at evaluates
      obtain ⟨rfl, rfl⟩ := evaluates
      exact ⟨point, .refl stands, _, rfl, .code atTop (by rw [kind_eq]; rfl)⟩
  | global notLocal atTop kind_eq =>
      rw [builds_lowerName_of_variable notLocal atTop kind_eq]
      intro fuel _ call frame point world later result _ stands _ _ evaluates
      rw [evalKind, evalName, if_pos atTop, kind_eq, yields_pure] at evaluates
      obtain ⟨rfl, rfl⟩ := evaluates
      exact ⟨point, .refl stands, _, rfl,
        .place (stands.agrees.static_eq declaration atTop _ _ kind_eq)⟩
  | @constant kind _ initializer notLocal atTop constant =>
      rw [builds_lowerName_of_constant notLocal atTop constant.kind_eq constant.different]
      refine (computes initializer constant.isConstant constant.initialized before valid unbound
        (constant.names.mono fun _ member => .inr member)).mono ?_ fun _ => id
      rintro value after ⟨_, initializerComputes⟩
      intro fuel fuel_lt call frame point world later result becomes stands _ _ evaluates
      have means : Yields ((setting.program.evaluator setting.floats fuel).expr frame initializer)
          world result later := by
        rw [evalKind, evalName, if_pos atTop, constant.kind_eq] at evaluates
        cases kind with
        | var => exact absurd rfl constant.different
        | const | value => exact evaluates
      exact initializerComputes fuel fuel_lt.le call frame point world later result becomes stands
        (constant.names.mono fun other member inside => absurd member inside) means

/-- An operator that evaluates both operands means the same. -/
theorem lowerBinary_computes (coherent : setting.program.Coherent) {operator : BinaryOperator}
    {left right : ExprId} (strict : operator.isLogical = false)
    (computesLeft : ComputesExpr setting level lower left)
    (computesRight : ComputesExpr setting level lower right)
    (leftNames : setting.program.ast.Names (Available setting.program before) left)
    (rightNames : setting.program.ast.Names (Available setting.program before) right)
    (stands : ∀ leftValue rightValue, ∃ operation,
      operator.operation? (valueType setting.program.ast left) leftValue rightValue = some operation ∧
        operation.operands = [leftValue, rightValue] ∧ operation.incoming = []) :
    Builds (lowerBinary setting.program.ast lower operator left right) before
      (ComputesKind setting level (.binary operator left right) before) fun _ => False := by
  rw [lowerBinary, builds_bind]
  refine (computesLeft before valid unbound leftNames).mono ?_ fun _ => id
  rintro leftValue middle ⟨givesLeft, leftComputes⟩
  rw [builds_bind]
  refine (computesRight.behind valid unbound rightNames givesLeft.grows givesLeft.locals_eq).mono ?_
    fun _ => id
  rintro rightValue after ⟨givesRight, rightComputes⟩
  obtain ⟨operation, means, _⟩ := stands leftValue rightValue
  rw [means]
  dsimp only
  rw [builds_emit]
  intro fuel fuel_lt call frame point world later result becomes stands _ names evaluates
  have middleValid := valid.of_grows givesLeft.grows
  have afterBecomes := (Becomes.emit (middleValid.of_grows givesRight.grows) _).trans becomes
  have middleBecomes := (givesRight.grows.becomes middleValid.wellFormed).trans afterBecomes
  rw [ExprKind.operands, List.forall_mem_cons, List.forall_mem_singleton] at names
  obtain ⟨leftResult, turned, rightResult, leftYields, rightYields, applied⟩ :=
    yields_evalBinary strict evaluates
  obtain ⟨leftPoint, leftArrives, leftShown⟩ := leftComputes fuel fuel_lt.le call frame point world
    turned leftResult middleBecomes stands names.1 leftYields
  obtain ⟨rightPoint, rightArrives, rightShown⟩ := rightComputes fuel fuel_lt.le call frame leftPoint
    turned later rightResult afterBecomes (leftArrives.stands stands)
    (names.2.mono fun _ named => named.advance leftArrives.advances givesLeft.locals_eq
      givesLeft.grows.temporaries_le) rightYields
  have arrives := leftArrives.trans rightArrives givesLeft.grows.temporaries_le
  obtain ⟨leftWord, leftHeld, leftSame⟩ := rightArrives.advances.shows leftShown givesLeft.below
  obtain ⟨rightWord, rightHeld, rightSame⟩ := rightShown
  obtain ⟨word, computed, same⟩ := BinaryOperator.compute_of_apply
    (arrives.agrees.same?_eq coherent.names_nodup leftSame rightSame) leftSame rightSame leftHeld
    rightHeld means applied
  obtain ⟨final, emits, shown⟩ := (arrives.stands stands).compute becomes.includes computed same
  exact ⟨final, arrives.trans emits (givesLeft.grows.trans givesRight.grows).temporaries_le, shown⟩

/-- An operator on one value means the same. -/
theorem lowerUnary_computes {operator : UnaryOperator} {operand : ExprId}
    (computes : ComputesExpr setting level lower operand)
    (names : setting.program.ast.Names (Available setting.program before) operand) :
    Builds (do emit (operator.operation (← lower operand))) before
      (ComputesKind setting level (.unary operator operand) before) fun _ => False := by
  rw [builds_bind]
  refine (computes before valid unbound names).mono ?_ fun _ => id
  rintro value middle ⟨gives, valueComputes⟩
  rw [builds_emit]
  intro fuel fuel_lt call frame point world later result becomes stands _ names evaluates
  rw [ExprKind.operands, List.forall_mem_singleton] at names
  rw [evalKind, yields_bind] at evaluates
  obtain ⟨operandResult, _, yields, lifts⟩ := evaluates
  obtain ⟨applied, rfl⟩ := yields_lift.1 lifts
  obtain ⟨middlePoint, arrives, word, held, same⟩ := valueComputes fuel fuel_lt.le call frame point
    world _ operandResult ((Becomes.emit (valid.of_grows gives.grows) _).trans becomes) stands names
    yields
  obtain ⟨_, computed, same⟩ := operator.compute_of_apply held same applied
  obtain ⟨final, emits, shown⟩ := (arrives.stands stands).compute becomes.includes computed same
  exact ⟨final, arrives.trans emits gives.grows.temporaries_le, shown⟩

/-- A conversion means the same, and reading an object reads what has been written to it. -/
theorem lowerConversion_computes {conversion : Conversion} {operand : ExprId} {target : Ty}
    (computes : ComputesExpr setting level lower operand)
    (names : setting.program.ast.Names (Available setting.program before) operand) :
    Builds (do
        emit (conversion.operation (valueType setting.program.ast operand) (.ofTy target)
          (← lower operand))) before
      (ComputesKind setting level (.convert conversion operand) before) fun _ => False := by
  rw [builds_bind]
  refine (computes before valid unbound names).mono ?_ fun _ => id
  rintro value middle ⟨gives, valueComputes⟩
  rw [builds_emit]
  intro fuel fuel_lt call frame point world later result becomes stands _ names evaluates
  rw [ExprKind.operands, List.forall_mem_singleton] at names
  have middleBecomes := (Becomes.emit (valid.of_grows gives.grows) _).trans becomes
  obtain ⟨operandResult, turned, yields, rest⟩ := yields_evalConversion evaluates
  obtain ⟨middlePoint, arrives, valueShown⟩ := valueComputes fuel fuel_lt.le call frame point
    world turned operandResult middleBecomes stands names yields
  have middleStands := arrives.stands stands
  by_cases isLoad : conversion = .load
  · rw [if_pos isLoad] at rest
    obtain ⟨place, isPlace, read, rfl⟩ := rest
    rw [isLoad] at becomes ⊢
    cases operandResult <;> cases isPlace
    obtain ⟨final, emits, shown⟩ := middleStands.load becomes.includes valueShown read
    exact ⟨final, arrives.trans emits gives.grows.temporaries_le, shown⟩
  · rw [if_neg isLoad] at rest
    obtain ⟨applied, rfl⟩ := rest
    obtain ⟨word, held, same⟩ := valueShown
    obtain ⟨_, computed, same⟩ := conversion.compute_of_apply held same target applied
    obtain ⟨final, emits, shown⟩ := middleStands.compute becomes.includes computed same
    exact ⟨final, arrives.trans emits gives.grows.temporaries_le, shown⟩

/-- The target and the value of an assignment mean the same, and so does the place that is written. -/
theorem lowerAssignment_computes {target value : ExprId}
    (computesTarget : ComputesExpr setting level lower target)
    (computesValue : ComputesExpr setting level lower value)
    (targetNames : setting.program.ast.Names (Available setting.program before) target)
    (valueNames : setting.program.ast.Names (Available setting.program before) value) :
    Builds (lowerAssignment setting.program.ast lower target value) before
      (ComputesKind setting level (.assign target value) before) fun _ => False := by
  rw [lowerAssignment, builds_bind]
  refine (computesTarget before valid unbound targetNames).mono ?_ fun _ => id
  rintro pointer middle ⟨givesTarget, targetComputes⟩
  rw [builds_bind]
  refine (computesValue.behind valid unbound valueNames givesTarget.grows givesTarget.locals_eq).mono ?_
    fun _ => id
  rintro stored after ⟨givesValue, valueComputes⟩
  rw [builds_bind, builds_perform, builds_pure]
  intro fuel fuel_lt call frame point world later result becomes stands _ names evaluates
  have middleValid := valid.of_grows givesTarget.grows
  have afterBecomes := (Becomes.perform (middleValid.of_grows givesValue.grows) _).trans becomes
  have middleBecomes := (givesValue.grows.becomes middleValid.wellFormed).trans afterBecomes
  rw [ExprKind.operands, List.forall_mem_cons, List.forall_mem_singleton] at names
  obtain ⟨place, turned, storedResult, written, targetYields, valueYields, rfl, rfl⟩ :=
    yields_evalAssignment evaluates
  obtain ⟨targetPoint, targetArrives, targetShown⟩ := targetComputes fuel fuel_lt.le call frame point
    world turned (.place place) middleBecomes stands names.1 targetYields
  obtain ⟨valuePoint, valueArrives, valueShown⟩ := valueComputes fuel fuel_lt.le call frame targetPoint
    turned written storedResult afterBecomes (targetArrives.stands stands)
    (names.2.mono fun _ named => named.advance targetArrives.advances givesTarget.locals_eq
      givesTarget.grows.temporaries_le) valueYields
  have arrives := targetArrives.trans valueArrives givesTarget.grows.temporaries_le
  replace targetShown := valueArrives.advances.shows targetShown givesTarget.below
  obtain ⟨final, stores⟩ : ∃ final, Arrives setting call after.temporaries valuePoint _ _ final :=
    (arrives.stands stands).store becomes.includes targetShown valueShown
  exact ⟨final, arrives.trans stores (givesTarget.grows.trans givesValue.grows).temporaries_le,
    stores.advances.shows targetShown (givesTarget.below_later givesValue)⟩

/-- Arguments mean the same. -/
theorem lowerArguments_computes {arguments : List ExprId}
    (computes : ∀ argument ∈ arguments, ComputesExpr setting level lower argument)
    (names : ∀ argument ∈ arguments,
      setting.program.ast.Names (Available setting.program before) argument) :
    Builds (lowerArguments setting.program.ast lower arguments) before
      (fun values after => GivesValues before values after ∧
        ComputesAll setting level arguments before values after) fun _ => False := by
  induction arguments generalizing before with
  | nil =>
      rw [lowerArguments, builds_pure]
      refine ⟨⟨.refl, rfl, by simp, id⟩, ?_⟩
      intro fuel _ call frame point world later results _ stands _ evaluates
      rw [evalAll, yields_pure] at evaluates
      obtain ⟨rfl, rfl⟩ := evaluates
      exact ⟨point, .refl stands, .nil⟩
  | cons argument arguments induction =>
      rw [List.forall_mem_cons] at computes names
      rw [lowerArguments, builds_bind]
      refine (computes.1 before valid unbound names.1).mono ?_ fun _ => id
      rintro value middle ⟨gives, valueComputes⟩
      have middleValid := valid.of_grows gives.grows
      rw [builds_bind]
      refine (induction middleValid ?_ computes.2 ?_).mono ?_ fun _ => id
      · intro declaration atTop
        rw [Builder.local?, gives.locals_eq]
        exact unbound declaration atTop
      · rw [available_of_locals_eq gives.locals_eq]
        exact names.2
      rintro values after ⟨givesRest, restComputes⟩
      rw [builds_pure]
      refine ⟨⟨gives.grows.trans givesRest.grows, givesRest.locals_eq.trans gives.locals_eq, ?_,
        fun current => givesRest.current_kept (gives.current_kept current)⟩, ?_⟩
      · rw [List.map_cons, List.forall_mem_cons]
        exact ⟨gives.below.mono givesRest.grows.temporaries_le, givesRest.below⟩
      intro fuel fuel_le call frame point world later results becomes stands names evaluates
      rw [evalAll, yields_bind] at evaluates
      obtain ⟨first, turned, firstYields, evaluates⟩ := evaluates
      rw [yields_bind] at evaluates
      obtain ⟨others, _, restYields, evaluates⟩ := evaluates
      obtain ⟨rfl, rfl⟩ := yields_pure.1 evaluates
      rw [List.forall_mem_cons] at names
      obtain ⟨firstPoint, firstArrives, shown⟩ := valueComputes fuel fuel_le call frame point world
        turned first ((givesRest.grows.becomes middleValid.wellFormed).trans becomes) stands names.1
        firstYields
      obtain ⟨final, restArrives, restShown⟩ := restComputes fuel fuel_le call frame firstPoint turned
        _ others becomes (firstArrives.stands stands)
        (fun argument member => (names.2 argument member).mono fun _ named =>
          named.advance firstArrives.advances gives.locals_eq gives.grows.temporaries_le) restYields
      exact ⟨final, firstArrives.trans restArrives gives.grows.temporaries_le,
        .cons (restArrives.advances.shows shown gives.below) restShown⟩

/-- A call means the same if the calls of functions do. -/
theorem lowerCall_computes (runsCalls : ∀ fuel < level, RunsCalls setting fuel) {callee : ExprId}
    {arguments : List ExprId} {type : Ir.ValueType}
    (computesCallee : ComputesExpr setting level lower callee)
    (computes : ∀ argument ∈ arguments, ComputesExpr setting level lower argument)
    (calleeNames : setting.program.ast.Names (Available setting.program before) callee)
    (names : ∀ argument ∈ arguments,
      setting.program.ast.Names (Available setting.program before) argument) :
    Builds (do
        let callee ← lower callee
        let arguments ← lowerArguments setting.program.ast lower arguments
        emit (.call type callee arguments)) before
      (ComputesKind setting level (.call callee arguments) before) fun _ => False := by
  rw [builds_bind]
  refine (computesCallee before valid unbound calleeNames).mono ?_ fun _ => id
  rintro function middle ⟨gives, calleeComputes⟩
  have middleValid := valid.of_grows gives.grows
  rw [builds_bind]
  refine (lowerArguments_computes middleValid ?_ computes ?_).mono ?_ fun _ => id
  · intro declaration atTop
    rw [Builder.local?, gives.locals_eq]
    exact unbound declaration atTop
  · rw [available_of_locals_eq gives.locals_eq]
    exact names
  rintro values after ⟨givesArguments, argumentsCompute⟩
  rw [builds_emit]
  intro fuel fuel_lt call frame point world later result becomes stands _ names evaluates
  have afterBecomes := (Becomes.emit (middleValid.of_grows givesArguments.grows) _).trans becomes
  have middleBecomes := (givesArguments.grows.becomes middleValid.wellFormed).trans afterBecomes
  rw [ExprKind.operands, List.forall_mem_cons] at names
  obtain ⟨id, turned, results, ready, calleeYields, argumentsYield, calls⟩ :=
    yields_evalCall evaluates
  obtain ⟨calleePoint, calleeArrives, calleeShown⟩ := calleeComputes fuel fuel_lt.le call frame point
    world turned (.code id) middleBecomes stands names.1 calleeYields
  obtain ⟨readyPoint, argumentsArrive, argumentsShown⟩ := argumentsCompute fuel fuel_lt.le call frame
    calleePoint turned ready results afterBecomes (calleeArrives.stands stands)
    (fun argument member => (names.2 argument member).mono fun _ named =>
      named.advance calleeArrives.advances gives.locals_eq gives.grows.temporaries_le) argumentsYield
  have arrives := calleeArrives.trans argumentsArrive gives.grows.temporaries_le
  have readyStands := arrives.stands stands
  obtain ⟨_, calleeHeld, calleeSame⟩ := argumentsArrive.advances.shows calleeShown gives.below
  obtain ⟨rfl, atTop, isFunction⟩ := calleeSame.of_code
  obtain ⟨words, held, same⟩ := exists_values argumentsShown
  -- the machine enters the function, which returns to behind the call
  obtain ⟨rest, rest_eq, _⟩ := readyStands.position.emit becomes.includes
  obtain ⟨entered, enters, layout, memory, word, runs, layout_le, agrees, resultSame⟩ :=
    runsCalls fuel fuel_lt readyPoint.layout ready later readyPoint.memory id results words result
      ((readyPoint.frame.withRest rest, some after.temporaries) :: call.callers) atTop isFunction same
      readyStands.agrees calls
  have step : setting.module.step setting.floats
      (.running readyPoint.frame call.callers readyPoint.memory) = some (.running entered
        ((readyPoint.frame.withRest rest, some after.temporaries) :: call.callers)
        readyPoint.memory) := by
    rw [Ir.Module.step_instruction rest_eq]
    refine Ir.Instruction.run_call ?_ ?_ enters
    · rw [Ir.Frame.value_withRest, calleeHeld]
    · rw [Ir.Frame.values_withRest, held]
  obtain ⟨final, emits, holds, layout_eq⟩ := readyStands.emit becomes.includes
    (fun other other_eq => by
      obtain rfl : rest = other := (List.cons.inj (rest_eq.symm.trans other_eq)).2
      exact .head step runs) layout_le agrees
  exact ⟨final, arrives.trans emits (gives.grows.trans givesArguments.grows).temporaries_le, word,
    holds, layout_eq ▸ resultSame⟩

end Forms

/-- One typed expression means the same if its operands do, and if it is a name then the initializer of the
constant it leads to. -/
theorem lowerKind_computes (coherent : setting.program.Coherent)
    (runsCalls : ∀ fuel < level, RunsCalls setting fuel) {kind : ExprKind} {type : Ty}
    (location : Location) (valid : before.Valid)
    (unbound : ∀ declaration ∈ setting.program.declarations, before.local? declaration = none)
    (typed : setting.program.ast.HasType kind type)
    (available : ∀ declaration, kind = .name declaration →
      Available setting.program before declaration)
    (names : ∀ operand ∈ kind.operands,
      setting.program.ast.Names (Available setting.program before) operand)
    (computes : ∀ operand ∈ kind.operands, ComputesExpr setting level lower operand)
    (computesConstant : ∀ declaration initializer, kind = .name declaration →
      (setting.program.ast.kindOf declaration).isConstant = true →
      (setting.program.ast.kindOf declaration).initializer? = some initializer →
      ComputesExpr setting level lower initializer) :
    Builds (lowerKind setting.program lower ⟨kind, type, location⟩) before
      (ComputesKind setting level kind before) fun _ => False := by
  cases kind with
  | bool flag =>
      rw [lowerKind, builds_pure]
      exact computesKind_literal (fun _ _ => rfl) fun _ => .bool flag
  | int number =>
      rw [lowerKind, builds_pure]
      exact computesKind_literal (fun _ _ => rfl) fun _ => .int number
  | float number =>
      rw [lowerKind, builds_pure]
      exact computesKind_literal (fun _ _ => rfl) fun _ => .float number
  | char character =>
      rw [lowerKind, builds_pure]
      exact computesKind_literal (fun _ _ => rfl) fun _ => .char character
  | name declaration =>
      exact lowerName_computes valid unbound coherent (available declaration rfl)
        (fun initializer => computesConstant declaration initializer rfl)
  | unary operator operand =>
      rw [ExprKind.operands, List.forall_mem_singleton] at names computes
      exact lowerUnary_computes valid unbound computes names
  | binary operator left right =>
      rw [ExprKind.operands, List.forall_mem_cons, List.forall_mem_singleton] at names computes
      by_cases isLogical : operator.isLogical = true
      · cases operator <;> cases isLogical
        · exact lowerLogical_computes valid unbound false computes.1 computes.2 names.1 names.2
        · exact lowerLogical_computes valid unbound true computes.1 computes.2 names.1 names.2
      · have strict : operator.isLogical = false := by simpa using isLogical
        have builds := lowerBinary_computes valid unbound coherent strict computes.1 computes.2 names.1
          names.2 (BinaryOperator.operation?_of_typed typed strict)
        cases operator <;> first | exact builds | exact absurd rfl isLogical
  | call callee arguments =>
      rw [ExprKind.operands, List.forall_mem_cons] at names computes
      exact lowerCall_computes valid unbound runsCalls computes.1 computes.2 names.1 names.2
  | index => cases typed
  | cast operand =>
      rw [ExprKind.operands, List.forall_mem_singleton] at names computes
      refine (computes before valid unbound names).mono ?_ fun _ => id
      rintro value after ⟨_, valueComputes⟩
      intro fuel fuel_lt call frame point world later result becomes stands _ named evaluates
      exact valueComputes fuel fuel_lt.le call frame point world later result becomes stands
        (named operand (by simp [ExprKind.operands])) evaluates
  | assign target value =>
      rw [ExprKind.operands, List.forall_mem_cons, List.forall_mem_singleton] at names computes
      exact lowerAssignment_computes valid unbound computes.1 computes.2 names.1 names.2
  | conditional guard whenTrue whenFalse =>
      rw [ExprKind.operands, List.forall_mem_cons, List.forall_mem_cons,
        List.forall_mem_singleton] at names computes
      exact lowerConditional_computes valid unbound _ computes.1 computes.2.1 computes.2.2 names.1
        names.2.1 names.2.2
  | convert conversion operand =>
      rw [ExprKind.operands, List.forall_mem_singleton] at names computes
      exact lowerConversion_computes valid unbound computes names

/-- Expressions mean the same wherever their names do. -/
theorem lowerExpr_computes (coherent : setting.program.Coherent)
    (runsCalls : ∀ fuel < level, RunsCalls setting fuel) (id : ExprId) :
    ComputesExpr setting level (lowerExpr setting.program) id := by
  intro before valid unbound names
  refine lowerExprWithin_induction (ComputesExpr setting level) coherent.sound ?_
    (Nat.lt_succ_of_lt names.index_lt) names.index_lt before valid unbound names
  intro fuel id enough bound lowers lowersConstant before valid unbound names
  have gives := lowerExprWithin_builds coherent enough before valid names
  have computes := lowerKind_computes coherent runsCalls (setting.program.ast.expr id).location
    valid unbound (coherent.sound.expr_typed id bound)
    (fun declaration named => names.visible_of_name named)
    (fun operand member => names.operand member) lowers lowersConstant
  refine (gives.and computes).mono ?_ fun _ never => never.1
  rintro value after ⟨gives, kindComputes⟩
  refine ⟨gives, ?_⟩
  intro steps steps_le call frame point world later result becomes stands named evaluates
  cases steps with
  | zero => cases evaluates
  | succ steps =>
      exact kindComputes steps steps_le call frame point world later result becomes stands
        (fun declaration form => named.visible_of_name form)
        (fun operand member => named.operand member) evaluates

end Minilang.Lowering
