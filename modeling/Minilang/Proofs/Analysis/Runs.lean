import Minilang.Analysis.Action
import Minilang.Proofs.Analysis.Declarations

/-!
# Runs of analysis keep programs typed

Actions may be taken in any order, and may fail halfway. As long as the handles that they are given have
been given out before, whatever they leave behind is a sound program.
-/

namespace Minilang.Analysis

namespace Action

/-- The expressions that an action is given. -/
def exprs : Action → List ExprId
  | assignment target value => [target, value]
  | conditional guard left right => [guard, left, right]
  | binary _ _ left right => [left, right]
  | cast operand _ | unary _ operand => [operand]
  | call callee arguments => callee :: arguments
  | index base arguments => base :: arguments
  | ifElse guard _ _ | whenTrue guard _ | whileTrue guard _ => [guard]
  | returnValue value => [value]
  | expressionStatement expression => [expression]
  | defineObject _ initializer => [initializer]
  | requireReference expression | load expression | requireCategory _ expression
  | requireSame _ expression | convertToBasic _ expression | convertTo expression _ => [expression]
  | _ => []

/-- The statements that an action is given. -/
def stmts : Action → List StmtId
  | block statements => statements
  | ifElse _ left right => [left, right]
  | whenTrue _ body | whileTrue _ body | defineFunction _ body => [body]
  | _ => []

/-- The declarations that an action is given. -/
def decls : Action → List DeclId
  | declarationStatement declaration => [declaration]
  | defineObject declaration _ | defineFunction declaration _ | declare declaration => [declaration]
  | declareFunction _ parameters _ => parameters
  | addProgram _ declarations => declarations
  | _ => []

/-- Whether all handles that an action is given have been given out before. -/
def Allocated (action : Action) (analysis : Analysis) : Prop :=
  (∀ id ∈ action.exprs, id.index < analysis.ast.exprs.size) ∧
    (∀ id ∈ action.stmts, id.index < analysis.ast.stmts.size) ∧
    ∀ id ∈ action.decls, id.index < analysis.ast.decls.size

instance (action : Action) (analysis : Analysis) : Decidable (action.Allocated analysis) :=
  inferInstanceAs (Decidable (_ ∧ _ ∧ _))

theorem Allocated.holds {action : Action} {analysis : Analysis}
    (allocated : action.Allocated analysis) {id : ExprId} (member : id ∈ action.exprs) :
    analysis.Holds 0 id :=
  ⟨Nat.zero_le _, allocated.1 id member⟩

end Action

/-- Whether the handles of every action of a run have been given out before it. -/
def AllAllocated : List Action → Analysis → Prop
  | [], _ => True
  | action :: actions, analysis =>
    action.Allocated analysis ∧ AllAllocated actions (action.run analysis).2

instance decidableAllAllocated :
    (actions : List Action) → (analysis : Analysis) → Decidable (AllAllocated actions analysis)
  | [], _ => .isTrue trivial
  | action :: actions, analysis =>
    let _ := decidableAllAllocated actions (action.run analysis).2
    inferInstanceAs (Decidable (_ ∧ _))

/-! ## Actions that add expressions -/

section Adding

variable {α β : Type} {before : Analysis}

/-- A step that adds nothing but expressions, whether it succeeds or not. -/
abbrev AddsThrough (step : Check α) (before : Analysis) : Prop :=
  Ensures step before (fun _ after => Adds 0 before after) fun _ after => Adds 0 before after

theorem addsThrough_map {step : Check α} (function : α → β) (adds : AddsThrough step before) :
    AddsThrough (function <$> step) before :=
  (ensures_map function step).2 adds

/-- From which expression on a step takes what it builds from does not matter. -/
theorem addsThrough_of_gives {step : Check ExprId} {fitting : Prop} {first : Nat}
    (ensures : Ensures step before (Gives first before) (FailsFor fitting first before)) :
    AddsThrough step before :=
  ensures.mono (fun _ _ gives => gives.1.of_le (Nat.zero_le first))
    fun _ _ fails => fails.1.of_le (Nat.zero_le first)

theorem addsThrough_of_fails {step : Check ExprId} {first : Nat}
    (ensures : Ensures step before (Gives first before) (Fails first before)) :
    AddsThrough step before :=
  ensures.mono (fun _ _ gives => gives.1.of_le (Nat.zero_le first))
    fun _ _ fails => fails.1.of_le (Nat.zero_le first)

end Adding

/-- Whether an action can add nothing but expressions. -/
def Action.onlyAdds : Action → Bool
  | basicType _ | pointerType _ | functionType _ _ | lookup _ => true
  | assignment _ _ | conditional _ _ _ | binary _ _ _ _ | cast _ _ | unary _ _ | call _ _
  | index _ _ => true
  | integerLiteral _ | negatedIntegerLiteral _ _ | booleanLiteral _ | floatLiteral _
  | characterLiteral _ | stringLiteral _ | name _ => true
  | requireReference _ | load _ | requireCategory _ _ | requireSame _ _ | commonType _ _ _
  | convertToBasic _ _ | convertTo _ _ => true
  | _ => false

/-- Actions on expressions add nothing but expressions, whether they succeed or not. -/
theorem Action.perform_adds {action : Action} {before : Analysis} (onlyAdds : action.onlyAdds = true)
    (allocated : action.Allocated before) : AddsThrough action.perform before := by
  have held {id : ExprId} (member : id ∈ action.exprs) : before.Holds 0 id :=
    allocated.holds member
  cases action with
  | basicType | pointerType | functionType | lookup => exact .refl
  | assignment target value =>
      exact addsThrough_map _ (addsThrough_of_fails
        (assignment_ensures (held (by simp [exprs])) (held (by simp [exprs]))))
  | conditional guard left right =>
      exact addsThrough_map _ (addsThrough_of_fails (conditional_ensures
        (held (by simp [exprs])) (held (by simp [exprs])) (held (by simp [exprs]))))
  | binary level token left right =>
      exact addsThrough_map _ (addsThrough_of_gives
        (combine_ensures level token (held (by simp [exprs])) (held (by simp [exprs]))))
  | cast operand type =>
      exact addsThrough_map _ (addsThrough_of_fails (cast_ensures type (held (by simp [exprs]))))
  | unary token operand =>
      exact addsThrough_map _ (addsThrough_of_gives (unary_ensures token (held (by simp [exprs]))))
  | call callee arguments =>
      exact addsThrough_map _ (addsThrough_of_fails (call_ensures (held (by simp [exprs]))
        fun argument member => held (by simp [exprs, member])))
  | index base arguments =>
      have ensures : Ensures (Analysis.index base arguments) before (Gives 0 before)
          (Fails 0 before) := index_ensures base arguments
      exact addsThrough_map _ (addsThrough_of_fails ensures)
  | integerLiteral token =>
      exact addsThrough_map _ (addsThrough_of_gives (integerLiteral_ensures token))
  | negatedIntegerLiteral sign token =>
      exact addsThrough_map _ (addsThrough_of_gives (negatedIntegerLiteral_ensures sign token))
  | booleanLiteral token =>
      exact addsThrough_map _ (addsThrough_of_gives (booleanLiteral_ensures token))
  | floatLiteral token =>
      exact addsThrough_map _ (addsThrough_of_gives (floatLiteral_ensures token))
  | characterLiteral token =>
      exact addsThrough_map _ (addsThrough_of_gives (characterLiteral_ensures token))
  | stringLiteral token =>
      exact addsThrough_map _ (addsThrough_of_fails (stringLiteral_ensures token))
  | name token => exact addsThrough_map _ (addsThrough_of_gives (name_ensures token))
  | requireReference expression =>
      have ensures := @requireReference_ensures 0 before expression
      refine addsThrough_map _ (ensures.mono ?_ fun _ _ fails => fails.1)
      rintro _ _ ⟨rfl, rfl, -⟩
      exact .refl
  | load expression =>
      exact addsThrough_map _ ((load_ensures (held (by simp [exprs]))).mono
        (fun _ _ gives => gives.1.1) fun _ _ fails => fails.1)
  | requireCategory category expression =>
      exact addsThrough_map _ ((requireCategory_ensures category (held (by simp [exprs]))).mono
        (fun _ _ gives => gives.1.1) fun _ _ fails => fails.1)
  | requireSame type expression =>
      have ensures := @requireSame_ensures 0 before type expression
      refine addsThrough_map _ (ensures.mono ?_ fun _ _ fails => fails.1)
      rintro _ _ ⟨rfl, -⟩
      exact .refl
  | commonType left right location =>
      have ensures := @commonType_ensures 0 before left right location
      refine addsThrough_map _ (ensures.mono ?_ fun _ _ fails => fails.1)
      rintro _ _ rfl
      exact .refl
  | convertToBasic target expression =>
      exact addsThrough_map _ ((convertToBasic_ensures target (held (by simp [exprs]))).mono
        (fun _ _ gives => gives.1.1) fun _ _ fails => fails.1)
  | convertTo expression type =>
      exact addsThrough_map _ ((convertTo_ensures type (held (by simp [exprs]))).mono
        (fun _ _ gives => gives.1.1) fun _ _ fails => fails.1)
  | _ => cases onlyAdds

/-! ## Growth -/

section Steps

variable {α : Type} {before : Analysis}

/-- A step behind which the program has grown whether it succeeded or not. -/
abbrev GrowsThrough (step : Check α) (before : Analysis) : Prop :=
  Ensures step before (fun _ after => Grows before after) fun _ after => Grows before after

/-- The result of a step may be wrapped. -/
theorem growsThrough_map {β : Type} {step : Check α} (function : α → β)
    (grows : GrowsThrough step before) : GrowsThrough (function <$> step) before :=
  (ensures_map function step).2 grows

/-- A statement under a truth value lets the program grow. -/
theorem growsThrough_of_guarded {step : Check StmtId} {guard : ExprId} (form : ExprId → Stmt)
    (ensures : Ensures step before (PutsGuarded 0 before guard form) (Fails 0 before))
    (guarded : ∀ value, (form value).expressions = [value])
    (notReturn : ∀ value returned, form value ≠ .returnValue returned)
    (undeclared : ∀ value, (form value).declared? = none)
    (child_lt : ∀ value, ∀ child ∈ (form value).children,
      child.index < before.ast.stmts.size) : GrowsThrough step before := by
  refine ensures.mono ?_ fun _ _ fails => fails.1.grows
  rintro id after ⟨value, middle, gives, guard_type, -, puts⟩
  refine gives.1.grows.trans (puts.grows (fun _ => .of_guard (guarded value) (notReturn value)
    (undeclared value) guard_type gives.2.2) ?_)
  rw [gives.1.stmts_eq]
  exact child_lt value

/-- A statement of what is there, without guard and returned value, lets the program grow. -/
theorem growsThrough_addStmt {stmt : Stmt}
    (unguarded : ∀ guard, ¬((∃ body, stmt = .whenTrue guard body) ∨
      (∃ whenTrue whenFalse, stmt = .ifElse guard whenTrue whenFalse) ∨
      (∃ body, stmt = .whileTrue guard body)))
    (notReturn : ∀ value, stmt ≠ .returnValue value)
    (expression_lt : ∀ expression ∈ stmt.expressions,
      expression.index < before.ast.exprs.size)
    (declared_lt : ∀ declaration, stmt.declared? = some declaration →
      declaration.index < before.ast.decls.size)
    (child_lt : ∀ child ∈ stmt.children, child.index < before.ast.stmts.size) :
    GrowsThrough (addStmt stmt) before :=
  (addStmt_ensures stmt).mono (fun _ _ puts => puts.grows
    (fun _ => .of_unguarded unguarded notReturn expression_lt declared_lt) child_lt)
    fun _ _ grows => grows

theorem growsThrough_startBlock : GrowsThrough startBlock before := by
  rw [GrowsThrough, startBlock, ensures_bind, ensures_get]
  by_cases body : before.scopes.parentKind? = some .global
  · rw [if_neg (not_not.2 body)]
    split
    · exact .refl _
    · next function defined =>
      refine (declareAll_ensures _).mono ?_ ?_
      · rintro _ after ⟨scopes, rfl⟩
        exact grows_withScopes before scopes
      · rintro error after ⟨⟨scopes, rfl⟩, -⟩
        exact grows_withScopes before scopes
  · rw [if_pos body]
    exact .refl _

/-- A value of its type completes an object. -/
theorem growsThrough_defineObject (id : DeclId) {initializer : ExprId}
    (held : before.Holds 0 initializer) : GrowsThrough (defineObject id initializer) before := by
  refine (defineObject_ensures id held).mono ?_ fun _ _ fails => fails.1.grows
  rintro id after ⟨value, middle, kind, type, gives, introduced, value_type, -, rfl, rfl⟩
  have kind_eq : middle.ast.kindOf id = .object kind type none := by
    rw [Ast.kindOf, Ast.decl, gives.1.decls_eq, ← introduced, Ast.kindOf, Ast.decl]
  have typed : (middle.ast.kindOf id).type? = some type := by rw [kind_eq, DeclKind.type?]
  have declared : id.index < middle.ast.decls.size := Ast.index_lt_of_type? typed
  have completes : (middle.ast.kindOf id).Completes (.object kind type (some value)) :=
    kind_eq ▸ .initializer kind type value
  refine gives.1.grows.trans ⟨.setDeclKind declared completes, fun sound => ?_⟩
  refine sound.setDeclKind declared completes fun other found => ?_
  cases found
  exact ⟨gives.2.2, congrArg some value_type.symm⟩

/-- A body completes a function. -/
theorem growsThrough_defineFunction (id : DeclId) (body : StmtId) :
    GrowsThrough (defineFunction id body) before := by
  refine (defineFunction_ensures id body).mono ?_ fun _ _ rejects => rejects.1
  rintro id after ⟨type, parameters, -, introduced, rfl, rfl⟩
  have typed : (before.ast.kindOf id).type? = some type := by rw [introduced, DeclKind.type?]
  have declared : id.index < before.ast.decls.size := Ast.index_lt_of_type? typed
  have completes : (before.ast.kindOf id).Completes (.function type parameters (some body)) :=
    introduced ▸ .body type parameters body
  refine Grows.trans ⟨.setDeclKind declared completes, fun sound => ?_⟩
    (grows_withFunction _ none)
  exact sound.setDeclKind declared completes fun other found => by cases found

end Steps

/-- Whether an action succeeds or fails, the program behind it has grown. -/
theorem Action.perform_grows {action : Action} {before : Analysis}
    (allocated : action.Allocated before) : GrowsThrough action.perform before := by
  by_cases onlyAdds : action.onlyAdds = true
  · exact (perform_adds onlyAdds allocated).mono (fun _ _ adds => adds.grows)
      fun _ _ adds => adds.grows
  have held {id : ExprId} (member : id ∈ action.exprs) : before.Holds 0 id :=
    allocated.holds member
  cases action with
  | block statements =>
      exact growsThrough_map _ (growsThrough_addStmt (by simp) (by simp)
        (by simp [Stmt.expressions]) (by simp [Stmt.declared?]) allocated.2.1)
  | startBlock => exact growsThrough_map _ growsThrough_startBlock
  | ifElse guard left right =>
      exact growsThrough_map _ (growsThrough_of_guarded (.ifElse · left right)
        (ifElse_ensures left right (held (by simp [exprs]))) (fun _ => rfl) (by simp)
        (fun _ => rfl) fun _ => allocated.2.1)
  | whenTrue guard body =>
      exact growsThrough_map _ (growsThrough_of_guarded (.whenTrue · body)
        (whenTrue_ensures body (held (by simp [exprs]))) (fun _ => rfl) (by simp)
        (fun _ => rfl) fun _ => allocated.2.1)
  | whileTrue guard body =>
      exact growsThrough_map _ (growsThrough_of_guarded (.whileTrue · body)
        (whileTrue_ensures body (held (by simp [exprs]))) (fun _ => rfl) (by simp)
        (fun _ => rfl) fun _ => allocated.2.1)
  | breakLoop token | continueLoop token =>
      exact growsThrough_map _ (growsThrough_addStmt (by simp) (by simp)
        (by simp [Stmt.expressions]) (by simp [Stmt.declared?]) (by simp [Stmt.children]))
  | returnValue value =>
      refine growsThrough_map _ ((returnValue_ensures (held (by simp [exprs]))).mono ?_
        fun _ _ fails => fails.1.grows)
      rintro id after ⟨returned, middle, function, parameters, gives, -, declared, puts⟩
      refine gives.1.grows.trans (puts.grows (fun _ => ⟨by simp, ?_, ?_, by simp [Stmt.declared?]⟩)
        (by simp [Stmt.children]))
      · rintro _ ⟨rfl⟩
        exact ⟨function, parameters, gives.1.extends'.type?_eq declared⟩
      · simpa [Stmt.expressions] using gives.2.2
  | expressionStatement expression =>
      exact growsThrough_map _ (growsThrough_addStmt (by simp) (by simp) allocated.1
        (by simp [Stmt.declared?]) (by simp [Stmt.children]))
  | declarationStatement declaration =>
      refine growsThrough_map _ (growsThrough_addStmt (by simp) (by simp)
        (by simp [Stmt.expressions]) ?_ (by simp [Stmt.children]))
      rintro _ ⟨rfl⟩
      exact allocated.2.2 declaration (by simp [decls])
  | declareObject kind token type =>
      refine growsThrough_map _ ((declareObject_ensures kind token type).mono ?_
        fun _ _ rejects => rejects.1)
      rintro id after ⟨name, scopes, -, -, -, rfl⟩
      exact (grows_withDecl before rfl).trans (grows_withScopes _ scopes)
  | declareParameter token type =>
      refine growsThrough_map _ ((declareParameter_ensures token type).mono ?_
        fun _ _ rejects => rejects.1)
      rintro id after ⟨name, scopes, -, -, -, rfl⟩
      exact (grows_withDecl before rfl).trans (grows_withScopes _ scopes)
  | defineObject declaration initializer =>
      exact growsThrough_map _ (growsThrough_defineObject declaration (held (by simp [exprs])))
  | declareFunction token parameters result =>
      refine growsThrough_map _ ((declareFunction_ensures token parameters result).mono ?_
        fun _ _ rejects => rejects.1)
      rintro id after ⟨name, scopes, -, -, -, -, rfl⟩
      exact ((grows_withDecl before rfl).trans (grows_withScopes _ scopes)).trans
        (grows_withFunction _ id)
  | defineFunction declaration body =>
      exact growsThrough_map _ (growsThrough_defineFunction declaration body)
  | addProgram title declarations =>
      refine growsThrough_map _ ((addProgram_ensures title declarations).mono ?_
        fun _ _ grows => grows)
      rintro id after ⟨-, rfl⟩
      exact grows_withDecl before rfl
  | enterGlobalScope =>
      refine growsThrough_map _ (enterGlobalScope_ensures.mono ?_ fun _ _ rejects => rejects.1)
      rintro _ after ⟨-, rfl⟩
      exact grows_withScopes before _
  | enterParameterScope =>
      refine growsThrough_map _ (enterParameterScope_ensures.mono ?_ fun _ _ grows => grows)
      rintro _ after rfl
      exact grows_withScopes before _
  | enterBlockScope =>
      refine growsThrough_map _ (enterBlockScope_ensures.mono ?_ fun _ _ grows => grows)
      rintro _ after rfl
      exact grows_withScopes before _
  | leaveScope =>
      refine growsThrough_map _ (leaveScope_ensures.mono ?_ fun _ _ rejects => rejects.1)
      rintro _ after ⟨frame, outer, -, rfl⟩
      exact grows_withScopes before outer
  | declare declaration =>
      refine growsThrough_map _ ((declare_ensures declaration).mono ?_ ?_)
      · rintro _ after ⟨scopes, -, rfl⟩
        exact grows_withScopes before scopes
      · rintro error _ ⟨rfl, -⟩
        exact .refl _
  | _ => exact absurd rfl onlyAdds

/-- The state behind an action has grown. -/
theorem Action.run_grows {action : Action} {before : Analysis}
    (allocated : action.Allocated before) : Grows before (action.run before).2 := by
  have grows := action.perform_grows allocated
  unfold GrowsThrough Ensures at grows
  unfold Action.run
  split at grows
  · next run => rw [run]; exact grows
  · next run => rw [run]; exact grows

/-- The state behind a run has grown. -/
theorem runAll_grows {actions : List Action} {before : Analysis}
    (allocated : AllAllocated actions before) : Grows before (runAll actions before).2 := by
  induction actions generalizing before with
  | nil => exact .refl _
  | cons action actions induction =>
      exact (action.run_grows allocated.1).trans (induction allocated.2)

/-- Whatever actions are taken, and whether they succeed or fail, the program that they leave behind is
typed and refers to older nodes only. -/
theorem runAll_sound (actions : List Action) (allocated : AllAllocated actions .initial) :
    (runAll actions .initial).2.ast.Sound :=
  (runAll_grows allocated).sound .empty

/-- A conversion that succeeds and a sum that fails behind its first operand leave a sound program. -/
theorem runAll_sound_of_failed_sum :
    (runAll [.integerLiteral ⟨.integer 1 .decimal, .unknown⟩,
      .booleanLiteral ⟨.boolean true, .unknown⟩, .convertTo ⟨0⟩ .float,
      .binary .additive ⟨.arithmetic .add, .unknown⟩ ⟨2⟩ ⟨1⟩] .initial).2.ast.Sound :=
  runAll_sound _ (by decide +kernel)

end Minilang.Analysis
