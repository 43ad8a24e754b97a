import Minilang.Proofs.Analysis.Outlines
import Minilang.Proofs.Lowering.ExpressionEvents
import Minilang.Proofs.Lowering.Statements

/-!
# Events of statements

Lowering statements takes exactly their effects, makes room for the variables that they declare and makes
three blocks for each loop. Jumps lead to the loops that they belong to, and statements fail to be lowered at
the first jump that belongs to none.
-/

namespace Minilang

/-- The block that a jump leads to: for what it is made, and the number of its loop. -/
def Jump.place? (jump : Jump) : Option (BlockRole × Nat) :=
  jump.loop.map fun loop => match jump.cause with
    | .breakLoop _ => (.whileEnd, loop)
    | .enter | .again | .continueLoop _ => (.whileCond, loop)

/-- The blocks that are made for a number of loops. -/
def BlockRole.ofLoops (count : Nat) : List BlockRole :=
  (List.replicate count [whileCond, whileBody, whileEnd]).flatten

@[simp] theorem BlockRole.ofLoops_zero : ofLoops 0 = [] := rfl

theorem BlockRole.ofLoops_add (first second : Nat) :
    ofLoops (first + second) = ofLoops first ++ ofLoops second := by
  rw [ofLoops, ← List.replicate_append_replicate, List.flatten_append]
  rfl

theorem BlockRole.count_ofLoops {role : BlockRole} (role_eq : role = .whileCond ∨ role = .whileEnd)
    (count : Nat) : (ofLoops count).count role = count := by
  induction count with
  | zero => rfl
  | succ count induction =>
      rw [Nat.add_comm, ofLoops_add, List.count_append, induction]
      obtain rfl | rfl := role_eq <;> rfl

namespace Lowering

open Builder (Records Valid)

/-- Whether a number of loops have begun. -/
def Begun (count : Nat) (builder : Builder) : Prop :=
  builder.countRole .whileCond = count ∧ builder.countRole .whileEnd = count

/-- Whether the targets of jumps are the blocks of the loop with a number. -/
inductive Encloses (builder : Builder) : Option LoopTargets → Option Nat → Prop
  | outside : Encloses builder none none
  | inside {targets : LoopTargets} {number : Nat} :
      builder.places[targets.continueBlock]? = some (.whileCond, number) →
      builder.places[targets.breakBlock]? = some (.whileEnd, number) →
      Encloses builder (some targets) (some number)

/-- Statements have been lowered: all jumps in them belong to loops, and what the statements do has been
added. -/
structure Performs (program : Program) (outline : Outline) (number : Option Nat) (begun : Nat)
    (before after : Builder) : Prop where
  /-- All jumps belong to loops. -/
  faultless : (outline.jumps program number begun).filterMap Jump.fault? = []
  /-- The effects, variables, jumps and loops have been added. -/
  records : Records (fun _ => True) (outline.effects program.ast)
    (outline.declared.map .ofTy) ((outline.jumps program number begun).filterMap Jump.place?)
    (BlockRole.ofLoops outline.loops) before after
  /-- A block is open if what follows goes on from the statements. -/
  current_eq : after.current.isSome = outline.goesOn program before.current.isSome

/-- Whether lowering statements does what they do, or fails at the first of their jumps that belongs to no
loop. -/
def PerformsStmt (program : Program) (scope : FunctionScope) (first : Nat) (outline : Outline)
    (loop : Option LoopTargets) (lower : Build Unit) : Prop :=
  ∀ (before : Builder) (number : Option Nat) (begun : Nat), before.Valid →
    Binds scope first before → Encloses before loop number → Begun begun before →
    Builds lower before (fun _ after => Performs program outline number begun before after)
      fun error => ((outline.jumps program number begun).filterMap Jump.fault?).head? = some error

/-- Nothing at the top of a program is numbered among the declarations that a function makes up to a
number. -/
def Uninvolved (program : Program) (scope : FunctionScope) (last : Nat) : Prop :=
  ∀ declaration ∈ program.declarations, declaration ∉ scope.parameters ∧
    (declaration.index ≤ scope.function.index ∨ last ≤ declaration.index)

variable {program : Program} {scope : FunctionScope} {first second count begun : Nat}
  {before middle after : Builder} {loop : Option LoopTargets} {number : Option Nat}
  {outline rest : Outline} {allowed : Event → Prop} {effects : List Effect}
  {rooms : List Ir.ValueType} {jumps : List (BlockRole × Nat)}

theorem Uninvolved.mono {last more : Nat} (apart : Uninvolved program scope more) (le : last ≤ more) :
    Uninvolved program scope last :=
  fun declaration atTop => ⟨(apart declaration atTop).1, (apart declaration atTop).2.imp_right le.trans⟩

/-- Nothing at the top has another value in a function. -/
theorem Binds.clear (binds : Binds scope count before) (apart : Uninvolved program scope count)
    (declaration : DeclId) (atTop : declaration ∈ program.declarations) :
    before.local? declaration = none := by
  obtain ⟨notParameter, outside⟩ := apart declaration atTop
  rw [← Option.not_isSome_iff_eq_none, binds]
  exact not_or.2 ⟨notParameter, by omega⟩

theorem Encloses.reaches (encloses : Encloses before loop number) : Reaches loop before := by
  have lt_size {index : Nat} {place : BlockRole × Nat}
      (found : before.places[index]? = some place) : index < before.blocks.size := by
    rw [← Builder.places_length]
    exact (List.getElem?_eq_some_iff.1 found).1
  rintro targets rfl
  cases encloses with
  | inside continues breaks => exact ⟨lt_size continues, lt_size breaks⟩

theorem Encloses.of_records {loops : List BlockRole} (encloses : Encloses before loop number)
    (records : Records allowed effects rooms jumps loops before after) :
    Encloses after loop number := by
  cases encloses with
  | outside => exact .outside
  | inside continues breaks => exact .inside (records.place_eq continues) (records.place_eq breaks)

theorem Begun.of_records (isBegun : Begun begun before) {more : Nat}
    (records : Records allowed effects rooms jumps (BlockRole.ofLoops more) before after) :
    Begun (begun + more) after := by
  refine ⟨?_, ?_⟩
  · rw [records.countRole_eq rfl, BlockRole.count_ofLoops (.inl rfl), isBegun.1]
  · rw [records.countRole_eq rfl, BlockRole.count_ofLoops (.inr rfl), isBegun.2]

theorem Begun.of_plain (isBegun : Begun begun before)
    (records : Records allowed effects rooms jumps [] before after) : Begun begun after :=
  @Begun.of_records _ _ _ _ _ _ _ isBegun 0 records

/-- An expression is lowered with its effects and no others where everything that it may name has a value. -/
theorem Lowerable.expression_evaluates (lowerable : Lowerable program scope) (valid : before.Valid)
    (binds : Binds scope count before) (apart : Uninvolved program scope count) {id : ExprId}
    (names : program.ast.Names (scope.Visible count) id) :
    Builds (lowerExpr program id) before (fun value after => GivesValue before value after ∧
      Records (fun _ => True) (program.ast.effects id) [] [] [] before after ∧
      after.current.isSome = (before.current.isSome || !program.isSilent id)) fun _ => False :=
  (lowerExprWithin_evaluates lowerable.coherent (Nat.lt_succ_of_lt names.index_lt) before valid
    (names.mono (binds.available lowerable.globals_eq)) (binds.clear apart)).mono
    (fun _ _ both => ⟨both.1, both.2.records.mono fun _ _ => trivial, both.2.current_eq⟩)
    fun _ => False.elim

/-- Parts of statements are lowered wherever the declarations before them have values, and do what they
do. -/
structure LowersPerforming (program : Program) (scope : FunctionScope) (first last : Nat)
    (outline : Outline) (loop : Option LoopTargets) (lower : Build Unit) : Prop where
  /-- The statements are lowered. -/
  lowers : LowersStmt scope first last loop lower
  /-- What they do is done. -/
  performs : PerformsStmt program scope first outline loop lower

namespace LowersPerforming

variable {last : Nat} {step : Build Unit}

theorem builds (lowers : LowersPerforming program scope first last outline loop step)
    (valid : before.Valid) (binds : Binds scope first before) (encloses : Encloses before loop number)
    (isBegun : Begun begun before) :
    Builds step before (fun _ after => Settles scope last before after ∧
        Performs program outline number begun before after)
      fun error => ((outline.jumps program number begun).filterMap Jump.fault?).head? = some error :=
  ((lowers.lowers before valid binds encloses.reaches).and
    (lowers.performs before number begun valid binds encloses isBegun)).mono (fun _ _ both => both)
    fun _ => And.right

/-- A sequence of one statement is that statement. -/
theorem of_singleton
    (lowers : LowersPerforming program scope first last (.sequence outline .skip) loop step) :
    LowersPerforming program scope first last outline loop step := by
  refine ⟨lowers.lowers, fun before number begun valid binds encloses isBegun => ?_⟩
  refine (lowers.performs before number begun valid binds encloses isBegun).mono ?_ ?_
  · rintro _ after ⟨faultless, records, current_eq⟩
    simp only [Outline.jumps, Outline.effects, Outline.declared, Outline.loops, List.append_nil,
      Nat.add_zero] at faultless records
    exact ⟨faultless, records, current_eq⟩
  · intro error
    simp only [Outline.jumps, List.append_nil]
    exact id

theorem to_singleton (lowers : LowersPerforming program scope first last outline loop step) :
    LowersPerforming program scope first last (.sequence outline .skip) loop step := by
  refine ⟨lowers.lowers, fun before number begun valid binds encloses isBegun => ?_⟩
  refine (lowers.performs before number begun valid binds encloses isBegun).mono ?_ ?_
  · rintro _ after ⟨faultless, records, current_eq⟩
    refine ⟨?_, ?_, current_eq⟩ <;>
      simpa only [Outline.jumps, Outline.effects, Outline.declared, Outline.loops, List.append_nil,
        Nat.add_zero]
  · intro error
    simp only [Outline.jumps, List.append_nil]
    exact id

/-- Statements one after another. -/
theorem cons {steps : Build Unit}
    (lowersFirst : LowersPerforming program scope first count outline loop step)
    (lowersRest : LowersPerforming program scope count last rest loop steps) :
    LowersPerforming program scope first last (.sequence outline rest) loop (do step; steps) := by
  refine ⟨lowersFirst.lowers.cons lowersRest.lowers,
    fun before number begun valid binds encloses isBegun => ?_⟩
  have faults_eq : ((Outline.sequence outline rest).jumps program number begun).filterMap
      Jump.fault? = (outline.jumps program number begun).filterMap Jump.fault? ++
        (rest.jumps program number (begun + outline.loops)).filterMap Jump.fault? := by
    rw [Outline.jumps, List.filterMap_append]
  rw [builds_bind, faults_eq]
  refine (lowersFirst.builds valid binds encloses isBegun).mono ?_
    fun error fault => by rw [List.head?_append, fault]; rfl
  rintro _ middle ⟨settles, performs⟩
  refine (lowersRest.performs middle number _ (valid.of_grows settles.grows) settles.binds
    (encloses.of_records performs.records) (isBegun.of_records performs.records)).mono ?_ ?_
  · rintro _ after later
    refine ⟨?_, ?_, ?_⟩
    · rw [faults_eq, performs.faultless, later.faultless]
      rfl
    · rw [Outline.jumps, List.filterMap_append, Outline.effects, Outline.declared, List.map_append,
        Outline.loops, BlockRole.ofLoops_add]
      exact performs.records.trans later.records
    · rw [later.current_eq, performs.current_eq, Outline.goesOn]
  · intro error fault
    rw [performs.faultless, List.nil_append]
    exact fault

end LowersPerforming

section Forms

variable {last : Nat} {guard : ExprId} {step whenFalse : Build Unit}
  (lowerable : Lowerable program scope) (apart : Uninvolved program scope first)
  (names : program.ast.Names (scope.Visible first) guard)

include lowerable apart names

theorem lowerWhen_performs
    (lowersBody : LowersPerforming program scope first last outline loop step) :
    LowersPerforming program scope first last (.whenTrue guard outline) loop
      (lowerWhen program guard step) := by
  refine ⟨lowerWhen_builds lowerable names lowersBody.lowers,
    fun before number begun valid binds encloses isBegun => ?_⟩
  rw [builds_lowerWhen]
  refine (lowerable.expression_evaluates valid binds apart names).mono ?_ fun _ => False.elim
  rintro condition split ⟨gives, evaluated, -⟩
  have splitValid := valid.of_grows gives.grows
  have started : Records (fun _ => True) (program.ast.effects guard) [] [] [] before
      (split.splitTwo .whenThen .whenEnd condition) :=
    evaluated.andThen (Builder.records_splitTwo splitValid trivial rfl rfl trivial trivial trivial)
  have startedGrows := gives.grows.splitTwo splitValid .whenThen .whenEnd gives.below
  refine (lowersBody.builds (valid.of_grows startedGrows)
    (binds.of_locals_eq (by simp [gives.locals_eq])) (encloses.of_records started)
    (isBegun.of_plain started)).mono ?_ fun _ fault => fault
  rintro _ joined ⟨settles, performs⟩
  have place := performs.records.place_eq (Builder.place_splitTwo .whenThen .whenEnd condition)
  have left := (started.trans performs.records).andThen (Builder.records_leavePlain
    (valid.of_grows (startedGrows.trans settles.grows)) place rfl trivial (split.blocks.size + 1))
  exact ⟨performs.faultless, left, rfl⟩

theorem lowerIf_performs
    (lowersTrue : LowersPerforming program scope first second outline loop step)
    (lowersFalse : LowersPerforming program scope second last rest loop whenFalse) :
    LowersPerforming program scope first last (.ifElse guard outline rest) loop
      (lowerIf program guard step whenFalse) := by
  refine ⟨lowerIf_builds lowerable names lowersTrue.lowers lowersFalse.lowers,
    fun before number begun valid binds encloses isBegun => ?_⟩
  have faults_eq : ((Outline.ifElse guard outline rest).jumps program number begun).filterMap
      Jump.fault? = (outline.jumps program number begun).filterMap Jump.fault? ++
        (rest.jumps program number (begun + outline.loops)).filterMap Jump.fault? := by
    rw [Outline.jumps, List.filterMap_append]
  rw [builds_lowerIf, faults_eq]
  refine (lowerable.expression_evaluates valid binds apart names).mono ?_ fun _ => False.elim
  rintro condition split ⟨gives, evaluated, -⟩
  have splitValid := valid.of_grows gives.grows
  have started : Records (fun _ => True) (program.ast.effects guard) [] [] [] before
      (split.splitThree .ifThen .ifElse .ifEnd condition) :=
    evaluated.andThen
      (Builder.records_splitThree splitValid trivial rfl rfl rfl trivial trivial trivial trivial)
  have startedGrows := gives.grows.splitThree splitValid .ifThen .ifElse .ifEnd gives.below
  obtain ⟨awaitsElse, awaitsEnd⟩ := Builder.Awaits.splitThree splitValid .ifThen .ifElse .ifEnd
    condition
  have startedValid := valid.of_grows startedGrows
  refine (lowersTrue.builds startedValid (binds.of_locals_eq (by simp [gives.locals_eq]))
    (encloses.of_records started) (isBegun.of_plain started)).mono ?_
    fun error fault => by rw [List.head?_append, fault]; rfl
  rintro _ turned ⟨settlesTrue, performsTrue⟩
  replace awaitsElse := awaitsElse.of_grows settlesTrue.grows
  replace awaitsEnd := awaitsEnd.of_grows settlesTrue.grows
  have turnedGrows := (startedGrows.trans settlesTrue.grows).leave awaitsEnd.fresh.lt_size awaitsElse
    (Nat.le_succ_of_le gives.grows.size_le)
  have place := performsTrue.records.place_eq (Builder.place_splitThree .ifThen .ifElse .ifEnd
    condition)
  have turnedRecords := (started.trans performsTrue.records).andThen (Builder.records_leavePlain
    (startedValid.of_grows settlesTrue.grows) place rfl trivial (split.blocks.size + 1))
  refine (lowersFalse.builds (valid.of_grows turnedGrows)
    (settlesTrue.binds.of_locals_eq (turned.leave_locals _ _)) (encloses.of_records turnedRecords)
    (isBegun.of_records turnedRecords)).mono ?_ ?_
  · rintro _ joined ⟨settlesFalse, performsFalse⟩
    have left := (turnedRecords.trans performsFalse.records).andThen (Builder.records_leavePlain
      (valid.of_grows (turnedGrows.trans settlesFalse.grows))
      (performsFalse.records.place_eq (Builder.place_leave place _ _)) rfl trivial
      (split.blocks.size + 2))
    refine ⟨?_, ?_, rfl⟩
    · rw [faults_eq, performsTrue.faultless, performsFalse.faultless]
      rfl
    · rw [Outline.jumps, List.filterMap_append, Outline.effects, Outline.declared, List.map_append,
        Outline.loops, BlockRole.ofLoops_add]
      simpa only [List.append_assoc, List.nil_append] using left
  · intro error fault
    rw [performsTrue.faultless, List.nil_append]
    exact fault

theorem lowerWhile_performs {step : LoopTargets → Build Unit}
    (lowersBody : ∀ targets, LowersPerforming program scope first last outline (some targets)
      (step targets)) :
    LowersPerforming program scope first last (.whileTrue guard outline) loop
      (lowerWhile program guard step) := by
  refine ⟨lowerWhile_builds lowerable names fun targets => (lowersBody targets).lowers,
    fun before number begun valid binds _ isBegun => ?_⟩
  rw [builds_lowerWhile]
  have started := Builder.Grows.refl.startLoop valid
  obtain ⟨awaitsBody, awaitsEnd⟩ := Builder.Awaits.startLoop valid
  obtain ⟨continues, breaks⟩ := before.places_startLoop
  rw [isBegun.1] at continues
  rw [isBegun.2] at breaks
  have startRecords := Builder.records_startLoop valid
  refine (lowerable.expression_evaluates (valid.of_grows started)
    (binds.of_locals_eq before.startLoop_locals) apart names).mono ?_ fun _ => False.elim
  rintro condition tested ⟨gives, evaluated, -⟩
  replace awaitsBody := awaitsBody.of_grows gives.grows
  replace awaitsEnd := awaitsEnd.of_grows gives.grows
  have testedValid := valid.of_grows (started.trans gives.grows)
  have closed := (started.trans gives.grows).endWith
    (.condBranch condition (before.blocks.size + 1) (before.blocks.size + 2))
    (by simpa [Ir.Terminator.operands] using gives.below)
    (by
      rw [Ir.Terminator.successors, List.forall_mem_cons, List.forall_mem_singleton]
      exact ⟨awaitsBody.fresh.lt_size, awaitsEnd.fresh.lt_size⟩)
  have entered := closed.enter (awaitsBody.endWith
    (.condBranch condition (before.blocks.size + 1) (before.blocks.size + 2))) (Nat.le_succ _)
  have forked : Records (fun _ => True) [] [] [] [] tested
      ((tested.endWith (.condBranch condition (before.blocks.size + 1)
        (before.blocks.size + 2))).goTo (before.blocks.size + 1)) :=
    (Builder.records_fork testedValid trivial trivial _ _).trans (Builder.records_goTo _)
  have enters := (startRecords.trans evaluated).andThen forked
  have encloses : Encloses ((tested.endWith (.condBranch condition (before.blocks.size + 1)
      (before.blocks.size + 2))).goTo (before.blocks.size + 1))
      (some ⟨before.blocks.size, before.blocks.size + 2⟩) (some begun) :=
    .inside (forked.place_eq (evaluated.place_eq continues))
      (forked.place_eq (evaluated.place_eq breaks))
  have isEntered : Begun (begun + 1) ((tested.endWith (.condBranch condition
      (before.blocks.size + 1) (before.blocks.size + 2))).goTo (before.blocks.size + 1)) :=
    isBegun.of_records enters
  have faults_eq : ((Outline.whileTrue guard outline).jumps program number begun).filterMap
      Jump.fault? = (outline.jumps program (some begun) (begun + 1)).filterMap Jump.fault? := by
    rw [Outline.jumps, List.filterMap_cons_none rfl, List.filterMap_append]
    split <;> simp [Jump.fault?]
  rw [faults_eq]
  refine ((lowersBody _).builds (valid.of_grows entered)
    (binds.of_locals_eq (by simp [gives.locals_eq])) encloses isEntered).mono ?_ fun _ fault => fault
  rintro _ turned ⟨settles, performs⟩
  refine ⟨faults_eq.trans performs.faultless, ?_, rfl⟩
  have place := performs.records.place_eq (forked.place_eq (evaluated.place_eq continues))
  have left := (enters.trans performs.records).trans (Builder.records_leave
    (valid.of_grows (entered.trans settles.grows)) place trivial (before.blocks.size + 2))
  have places_eq : ((Outline.whileTrue guard outline).jumps program number begun).filterMap
      Jump.place? = [(.whileCond, begun)] ++
        (outline.jumps program (some begun) (begun + 1)).filterMap Jump.place? ++
          if outline.goesOn program true = true then [(.whileCond, begun)] else [] := by
    rw [Outline.jumps]
    split <;> simp [Jump.place?]
  rw [places_eq, Outline.loops, Nat.add_comm outline.loops, BlockRole.ofLoops_add]
  rw [performs.current_eq, isBegun.1] at left
  simpa [Outline.effects, Outline.declared, BlockRole.isLoop, BlockRole.ofLoops] using left

end Forms

/-- A jump leads to a block of the innermost loop, or fails if there is no loop. -/
theorem lowerJump_records (role : BlockRole) {target : LoopTargets → Nat} {location : Location}
    {error : SemanticError} (valid : before.Valid) (encloses : Encloses before loop number)
    (isLoop : role.isLoop = true)
    (leads : ∀ targets loopNumber, Encloses before (some targets) (some loopNumber) →
      before.places[target targets]? = some (role, loopNumber)) :
    Builds (lowerJump loop target location error) before
      (fun _ after => ∃ loopNumber, number = some loopNumber ∧
        Records (fun _ => True) [] [] [(role, loopNumber)] [] before after ∧ after.current = none)
      fun fault => number = none ∧ fault = .semantic location error := by
  cases encloses with
  | outside => exact ⟨rfl, rfl⟩
  | @inside targets loopNumber continues breaks =>
      rw [lowerJump, builds_terminate]
      have jumped : Records (fun _ => True) [] []
          ([(role, loopNumber)].filter fun place => place.1.isLoop) [] before
          (before.endWith (.branch (target targets))) :=
        Builder.records_jump valid trivial (leads targets loopNumber (.inside continues breaks)) trivial
      rw [List.filter_singleton, isLoop] at jumped
      exact ⟨loopNumber, rfl, jumped, rfl⟩

theorem breakLoop_performs (location : Location) :
    PerformsStmt program scope first (.breakLoop location) loop
      (lowerJump loop LoopTargets.breakBlock location .breakOutsideLoop) := by
  intro before number begun valid _ encloses _
  refine (lowerJump_records .whileEnd valid encloses rfl fun targets loopNumber encloses => ?_).mono ?_ ?_
  · cases encloses with
    | inside _ breaks => exact breaks
  · rintro _ after ⟨loopNumber, rfl, records, current⟩
    exact ⟨rfl, records, by rw [current]; rfl⟩
  · rintro error ⟨rfl, rfl⟩
    rfl

theorem continueLoop_performs (location : Location) :
    PerformsStmt program scope first (.continueLoop location) loop
      (lowerJump loop LoopTargets.continueBlock location .continueOutsideLoop) := by
  intro before number begun valid _ encloses _
  refine (lowerJump_records .whileCond valid encloses rfl fun targets loopNumber encloses => ?_).mono ?_ ?_
  · cases encloses with
    | inside continues => exact continues
  · rintro _ after ⟨loopNumber, rfl, records, current⟩
    exact ⟨rfl, records, by rw [current]; rfl⟩
  · rintro error ⟨rfl, rfl⟩
    rfl

section Expressions

variable {value : ExprId} (lowerable : Lowerable program scope)

include lowerable

theorem lowerReturn_performs (result : Ir.ValueType) (apart : Uninvolved program scope first)
    (names : program.ast.Names (scope.Visible first) value) :
    PerformsStmt program scope first (.returnValue value) loop (do
      let value ← lowerExpr program value
      terminate (.ret result value)) := by
  intro before number begun valid binds _ _
  rw [builds_bind]
  refine (lowerable.expression_evaluates valid binds apart names).mono ?_ fun _ => False.elim
  rintro returned after ⟨gives, evaluated, -⟩
  rw [builds_terminate]
  exact ⟨rfl, evaluated.andThen (Builder.records_return (valid.of_grows gives.grows) trivial trivial
    result), rfl⟩

theorem lowerExpression_performs (apart : Uninvolved program scope first)
    (names : program.ast.Names (scope.Visible first) value) :
    PerformsStmt program scope first (.expression value) loop (do
      let _ ← lowerExpr program value) := by
  intro before number begun valid binds _ _
  rw [builds_bind]
  refine (lowerable.expression_evaluates valid binds apart names).mono ?_ fun _ => False.elim
  rintro returned after ⟨-, evaluated, current_eq⟩
  exact ⟨rfl, evaluated, current_eq⟩

/-- A variable gets room and is written, and a constant stands for its value. -/
theorem lowerLocal_performs (behind : scope.function.index < first)
    (apart : Uninvolved program scope (first + 1)) {kind : ObjectKind} {type : Ty}
    (kind_eq : program.ast.kindOf ⟨first⟩ = .object kind type (some value))
    (names : program.ast.Names (scope.Visible (if kind = .var then first + 1 else first)) value) :
    PerformsStmt program scope first (.object kind type value) loop (lowerLocal program ⟨first⟩) := by
  intro before number begun valid binds _ _
  by_cases isVariable : kind = .var
  · subst isVariable
    rw [builds_lowerLocal_of_variable kind_eq]
    have unbound := binds.unbound (lowerable.not_parameter kind_eq)
    have declared : before.Grows ((before.addAlloca (.ofTy type)).bind ⟨first⟩
        (.temp before.temporaries)) :=
      .bind (.addAlloca _ .refl) unbound (Nat.lt_succ_self _)
    have bound := (binds.of_locals_eq (before.addAlloca_locals (.ofTy type))).bind behind
      (.temp before.temporaries)
    refine (lowerable.expression_evaluates (valid.of_grows declared) bound apart names).mono ?_
      fun _ => False.elim
    rintro stored after ⟨gives, evaluated, -⟩
    have roomed : Records (fun _ => True) [] [.ofTy type] [] [] before
        ((before.addAlloca (.ofTy type)).bind ⟨first⟩ (.temp before.temporaries)) :=
      (Builder.records_addAlloca trivial).andThen (Builder.records_bind _ _)
    have written : Records (fun _ => True) [.store] [] [] [] after
        (after.perform (.store (.ofTy type) stored (.temp before.temporaries))) :=
      Builder.records_perform ((valid.of_grows declared).of_grows gives.grows) trivial trivial
    exact ⟨rfl, (roomed.trans evaluated).trans written, by simp [Outline.goesOn]⟩
  · rw [if_neg isVariable] at names
    rw [builds_lowerLocal_of_constant isVariable kind_eq]
    refine (lowerable.expression_evaluates valid binds (apart.mono (Nat.le_succ first)) names).mono
      ?_ fun _ => False.elim
    rintro bound after ⟨-, evaluated, current_eq⟩
    refine ⟨rfl, ?_, by simp [Outline.goesOn, isVariable, current_eq]⟩
    simpa [Outline.effects, Outline.declared, Outline.jumps, Outline.loops, isVariable] using
      evaluated.andThen (Builder.records_bind ⟨first⟩ bound)

end Expressions

/-- Every form of statement does what it does when it is lowered. -/
theorem followsForms_performs (lowerable : Lowerable program scope) (result : Ir.ValueType) :
    FollowsForms program scope.Visible result fun first ids last loop step =>
      scope.function.index < first → Uninvolved program scope last →
        LowersPerforming program scope first last (program.ast.outlines ids) loop step := by
  have lowers := followsForms_lowersStmt lowerable result
  have outline_eq {id : StmtId} {form : Stmt} (is : program.ast.StmtIs id form) :=
    Ast.outline_eq lowerable.coherent.sound is
  constructor
  case nil =>
    intro first loop behind _
    exact ⟨lowers.nil first loop behind, fun before _ _ _ _ _ _ => ⟨rfl, .refl _ _, rfl⟩⟩
  case cons =>
    intro first middle last id rest loop step steps first_le le_last firstHolds restHolds behind apart
    exact (firstHolds behind (apart.mono le_last)).of_singleton.cons
      (restHolds (behind.trans_le first_le) apart)
  case block =>
    intro first last id statements loop step form inner behind apart
    rw [Ast.outlines_cons, outline_eq form]
    exact (inner behind apart).to_singleton
  case whenTrue =>
    intro first last id guard body loop step form names le body_holds behind apart
    rw [Ast.outlines_cons, outline_eq form]
    exact (lowerWhen_performs lowerable (apart.mono le) names
      (body_holds behind apart).of_singleton).to_singleton
  case ifElse =>
    intro first second last id guard whenTrue whenFalse loop trueStep falseStep form names le le_last
      true_holds false_holds behind apart
    rw [Ast.outlines_cons, outline_eq form]
    exact (lowerIf_performs lowerable (apart.mono (le.trans le_last)) names
      (true_holds behind (apart.mono le_last)).of_singleton
      (false_holds (behind.trans_le le) apart).of_singleton).to_singleton
  case whileTrue =>
    intro first last id guard body loop step form names le body_holds behind apart
    rw [Ast.outlines_cons, outline_eq form]
    exact (lowerWhile_performs lowerable (apart.mono le) names
      fun targets => (body_holds targets behind apart).of_singleton).to_singleton
  case breakLoop =>
    intro first id location loop form behind _
    rw [Ast.outlines_cons, outline_eq form]
    exact .to_singleton ⟨lowers.breakLoop form behind, breakLoop_performs location⟩
  case continueLoop =>
    intro first id location loop form behind _
    rw [Ast.outlines_cons, outline_eq form]
    exact .to_singleton ⟨lowers.continueLoop form behind, continueLoop_performs location⟩
  case returnValue =>
    intro first id value loop form names behind apart
    rw [Ast.outlines_cons, outline_eq form]
    exact .to_singleton ⟨lowers.returnValue form names behind,
      lowerReturn_performs lowerable result apart names⟩
  case declaration =>
    intro first id kind type initializer loop form kind_eq names behind apart
    rw [Ast.outlines_cons, outline_eq form, Ast.outlineForm, kind_eq]
    exact .to_singleton ⟨lowers.declaration form kind_eq names behind,
      lowerLocal_performs lowerable behind apart kind_eq names⟩
  case expression =>
    intro first id value loop form names behind apart
    rw [Ast.outlines_cons, outline_eq form]
    exact .to_singleton ⟨lowers.expression form names behind,
      lowerExpression_performs lowerable apart names⟩

/-- A scoped statement does what it does when it is lowered outside of every loop with enough fuel. -/
theorem lowerStmt_performs (lowerable : Lowerable program scope) (result : Ir.ValueType) {last : Nat}
    {id : StmtId} (inScope : program.ast.Scoped scope.Visible first [id] last)
    (behind : scope.function.index < first) (apart : Uninvolved program scope last) :
    LowersPerforming program scope first last (program.ast.outline id) none
      (lowerStmt program result id) := by
  have holds := (followsForms_performs lowerable result).holds lowerable.coherent.sound inScope
    (program.ast.stmts.size + 1)
    (fun statement member => Nat.lt_succ_of_lt (inScope.index_lt statement member)) none behind apart
  rw [lowerSequence_singleton] at holds
  exact holds.of_singleton

end Lowering

end Minilang
