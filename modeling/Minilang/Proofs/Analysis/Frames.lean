import Minilang.Proofs.Analysis.Runs

/-!
# What actions leave alone

An action adds nodes and leaves those that are there as they are, except that it may give a declared object
its initializer or a declared function its body. An action that fails leaves even the scopes alone, and the
function that is being defined.
-/

namespace Minilang

namespace DeclKind

/-- Whether a declaration has got its initializer or its body. -/
def isComplete : DeclKind → Bool
  | object _ _ (some _) | function _ _ (some _) => true
  | _ => false

/-- What is complete stays complete. -/
theorem Completes.isComplete {before after : DeclKind} (completes : Completes before after)
    (complete : before.isComplete = true) : after.isComplete = true := by
  cases completes with
  | refl => exact complete
  | initializer | body => cases complete

end DeclKind

namespace Analysis

/-- Whether what has been declared is as it was. -/
def KeepsDecls (before after : Analysis) : Prop :=
  ∀ id : DeclId, id.index < before.ast.decls.size → after.ast.decl id = before.ast.decl id

/-- Whether declarations, scopes and the function that is being defined are as they were, although there may
be more declarations. -/
structure Keeps (before after : Analysis) : Prop where
  /-- Declarations are kept. -/
  decls : KeepsDecls before after
  /-- The same scopes are open. -/
  scopes_eq : after.scopes = before.scopes
  /-- The same function is being defined. -/
  function_eq : after.function = before.function

section Keeping

variable {before middle after : Analysis}

theorem KeepsDecls.of_decls_eq (same : after.ast.decls = before.ast.decls) :
    KeepsDecls before after := by
  intro id _
  rw [Ast.decl, same, Ast.decl]

theorem Keeps.refl (analysis : Analysis) : Keeps analysis analysis := ⟨fun _ _ => rfl, rfl, rfl⟩

theorem Adds.keeps {first : Nat} (adds : Adds first before after) : Keeps before after :=
  ⟨.of_decls_eq adds.decls_eq, adds.scopes_eq, adds.function_eq⟩

theorem keeps_withDecl (analysis : Analysis) (decl : Decl) :
    Keeps analysis (analysis.withDecl decl) :=
  ⟨fun _ earlier => Ast.decl_addDecl_of_lt earlier decl, rfl, rfl⟩

theorem keepsDecls_withScopes (analysis : Analysis) (scopes : ScopeChain) :
    KeepsDecls analysis (analysis.withScopes scopes) := .of_decls_eq rfl

theorem Puts.keepsDecls {stmt : Stmt} {id : StmtId} (puts : Puts middle stmt id after)
    (keeps : KeepsDecls before middle) : KeepsDecls before after := by
  obtain ⟨-, rfl⟩ := puts
  exact keeps

end Keeping

/-! ## Steps -/

section Steps

variable {α β : Type} {before : Analysis}

/-- A step behind which declarations are kept and, if it fails, scopes and the function as well. -/
abbrev KeepsThrough (step : Check α) (before : Analysis) : Prop :=
  Ensures step before (fun _ after => KeepsDecls before after) fun _ after => Keeps before after

theorem keepsThrough_map {step : Check β} (function : β → α) (keeps : KeepsThrough step before) :
    KeepsThrough (function <$> step) before :=
  (ensures_map function step).2 keeps

theorem keepsThrough_of_guarded {step : Check StmtId} {guard : ExprId} {form : ExprId → Stmt}
    {first : Nat} (ensures : Ensures step before (PutsGuarded first before guard form)
      (Fails first before)) : KeepsThrough step before := by
  apply ensures.mono ?_ fun _ _ fails => fails.1.keeps
  rintro id after ⟨value, middle, gives, -, -, puts⟩
  exact puts.keepsDecls gives.1.keeps.decls

theorem keepsThrough_nameOf (token : Token) : Ensures (nameOf token) before
    (fun _ after => after = before) fun _ after => Keeps before after := by
  apply (nameOf_ensures token).mono
  · exact fun _ _ spelled => spelled.2
  · rintro error _ ⟨-, rfl, rfl⟩
    exact .refl _

/-- A declaration that was just added stays if its name cannot be bound. -/
theorem keepsThrough_declareAdded (decl : Decl) :
    Ensures (declare ⟨before.ast.decls.size⟩) (before.withDecl decl)
      (fun _ after => KeepsDecls before after) fun _ after => Keeps before after := by
  apply (declareAdded_ensures decl).mono
  · rintro _ after ⟨scopes, -, rfl⟩
    exact (keeps_withDecl before decl).decls
  · rintro error after ⟨rfl, -⟩
    exact keeps_withDecl before decl

theorem keepsThrough_declareNew (token : Token) (kind : DeclKind) :
    KeepsThrough (declareNew token kind) before := by
  rw [KeepsThrough, declareNew, ensures_bind]
  apply (keepsThrough_nameOf token).mono ?_ fun _ _ keeps => keeps
  rintro name before rfl
  rw [ensures_bind, ensures_addDecl, ensures_bind]
  exact (keepsThrough_declareAdded ⟨name, token.location, kind⟩).mono (fun _ _ keeps => keeps)
    fun _ _ keeps => keeps

theorem keepsThrough_declareFunction (token : Token) (parameters : List DeclId) (result : Ty) :
    KeepsThrough (declareFunction token parameters result) before := by
  rw [KeepsThrough, declareFunction, ensures_bind]
  apply (keepsThrough_nameOf token).mono ?_ fun _ _ keeps => keeps
  rintro name before rfl
  rw [ensures_bind, ensures_get]
  split
  · exact .refl before
  · rw [ensures_bind, ensures_addDecl, ensures_bind]
    exact (keepsThrough_declareAdded _).mono (fun _ _ keeps => keeps) fun _ _ keeps => keeps

/-- Behind the start of a block only scopes may be different, even if it fails. -/
theorem startBlock_ensures_withScopes : Ensures startBlock before
    (fun _ after => ∃ scopes, after = before.withScopes scopes)
    fun _ after => ∃ scopes, after = before.withScopes scopes := by
  rw [startBlock, ensures_bind, ensures_get]
  split
  · exact ⟨before.scopes, rfl⟩
  · split
    · exact ⟨before.scopes, rfl⟩
    · exact (declareAll_ensures _).mono (fun _ _ bound => bound) fun _ _ bound => bound.1

theorem keepsThrough_enterGlobalScope : KeepsThrough enterGlobalScope before := by
  rw [KeepsThrough, enterGlobalScope, ensures_bind, ensures_get]
  by_cases outermost : before.scopes.depth = 0
  · rw [if_neg (not_not.2 outermost)]
    exact keepsDecls_withScopes before _
  · rw [if_pos outermost]
    exact .refl before

theorem keepsThrough_leaveScope : KeepsThrough leaveScope before := by
  rw [KeepsThrough, leaveScope, ensures_bind, ensures_get]
  split
  · exact keepsDecls_withScopes before _
  · exact .refl before

theorem keepsThrough_declare (id : DeclId) : KeepsThrough (declare id) before := by
  apply (declare_ensures id).mono
  · rintro _ after ⟨scopes, -, rfl⟩
    exact keepsDecls_withScopes before scopes
  · rintro error after ⟨rfl, -⟩
    exact .refl after

end Steps

/-! ## Definitions -/

/-- What has changed in a declaration that was given its initializer. -/
def Initializes (before after : Decl) : Prop :=
  ∃ kind type initializer, before.kind = .object kind type none ∧
    after = { before with kind := .object kind type (some initializer) }

/-- What has changed in a declaration that was given its body. -/
def Embodies (body : StmtId) (before after : Decl) : Prop :=
  ∃ type parameters, before.kind = .function type parameters none ∧
    after = { before with kind := .function type parameters (some body) }

/-- Whether one declaration has changed in a certain way, and no other one has. -/
structure Alters (id : DeclId) (changes : Decl → Decl → Prop) (before after : Analysis) : Prop where
  /-- The declaration has changed so. -/
  changes : changes (before.ast.decl id) (after.ast.decl id)
  /-- Other declarations are as they were. -/
  others (other : DeclId) : other.index < before.ast.decls.size → other ≠ id →
    after.ast.decl other = before.ast.decl other

/-- A kind is put in the place of one that has a type. -/
theorem alters_withKind {before : Analysis} {id : DeclId} {kind : DeclKind} {type : Ty}
    {changes : Decl → Decl → Prop} (typed : (before.ast.kindOf id).type? = some type)
    (change : changes (before.ast.decl id) { before.ast.decl id with kind := kind }) :
    Alters id changes before (before.withKind id kind) := by
  have declared := Ast.index_lt_of_type? typed
  constructor
  · rw [withKind, Ast.decl_setDeclKind _ _ _ _ declared, if_pos rfl]
    exact change
  · intro other _ different
    rw [withKind, Ast.decl_setDeclKind _ _ _ _ declared, if_neg different]

theorem defineObject_alters {first : Nat} {before : Analysis} (id : DeclId) {initializer : ExprId}
    (held : before.Holds first initializer) :
    Ensures (defineObject id initializer) before
      (fun _ after => Alters id Initializes before after) fun _ after => Keeps before after := by
  apply (defineObject_ensures id held).mono ?_ fun _ _ fails => fails.1.keeps
  rintro _ _ ⟨value, middle, kind, type, gives, introduced, -, -, -, rfl⟩
  have same (other : DeclId) : middle.ast.decl other = before.ast.decl other := by
    rw [Ast.decl, gives.1.decls_eq, Ast.decl]
  have kind_eq : middle.ast.kindOf id = .object kind type none := by
    rw [Ast.kindOf, same]
    exact introduced
  have alters : Alters id Initializes middle (middle.withKind id (.object kind type (some value))) :=
    alters_withKind (by rw [kind_eq, DeclKind.type?]) ⟨kind, type, value, kind_eq, rfl⟩
  constructor
  · rw [← same]
    exact alters.changes
  · intro other other_lt different
    rw [← same]
    apply alters.others other ?_ different
    rw [gives.1.decls_eq]
    exact other_lt

theorem defineFunction_alters {before : Analysis} (id : DeclId) (body : StmtId) :
    Ensures (defineFunction id body) before
      (fun _ after => Alters id (Embodies body) before after) fun _ after => Keeps before after := by
  rw [defineFunction, ensures_bind, ensures_get]
  split
  · exact .refl before
  · rw [ensures_bind, ensures_decl]
    split
    · next type parameters introduced =>
      have typed : (before.ast.kindOf id).type? = some type := by
        rw [Ast.kindOf, introduced, DeclKind.type?]
      have alters : Alters id (Embodies body) before
          (before.withKind id (.function type parameters (some body))) :=
        alters_withKind typed ⟨type, parameters, introduced, rfl⟩
      exact ⟨alters.changes, alters.others⟩
    · exact .refl before
    · exact .refl before

/-! ## Actions -/

namespace Action

/-- The declaration that an action is to complete. -/
def completed? : Action → Option DeclId
  | defineObject id _ | defineFunction id _ => some id
  | _ => none

/-- How an action changes the declaration that it completes. -/
def Changes : Action → Decl → Decl → Prop
  | defineFunction _ body => Embodies body
  | _ => Initializes

/-- What an action that succeeds leaves of the declarations. -/
def Completes (action : Action) (before after : Analysis) : Prop :=
  match action.completed? with
  | some id => Alters id action.Changes before after
  | none => KeepsDecls before after

end Action

/-- An action that is to complete nothing may keep everything. -/
theorem Action.completes_of_keeps {action : Action} {before : Analysis}
    (nothing : action.completed? = none) (keeps : KeepsThrough action.perform before) :
    Ensures action.perform before (fun _ after => action.Completes before after)
      fun _ after => KeepsDecls before after ∧ (action ≠ .startBlock → Keeps before after) := by
  apply keeps.mono
  · intro _ after keeps
    rw [Action.Completes, nothing]
    exact keeps
  · exact fun _ _ keeps => ⟨keeps.decls, fun _ => keeps⟩

/-- What every action leaves of the declarations and, if it fails, of scopes and the function. -/
theorem Action.perform_completes {action : Action} {before : Analysis}
    (allocated : action.Allocated before) : Ensures action.perform before
      (fun _ after => action.Completes before after)
      fun _ after => KeepsDecls before after ∧ (action ≠ .startBlock → Keeps before after) := by
  by_cases onlyAdds : action.onlyAdds = true
  · refine completes_of_keeps (by cases action <;> first | rfl | cases onlyAdds) ?_
    exact (perform_adds onlyAdds allocated).mono (fun _ _ adds => adds.keeps.decls)
      fun _ _ adds => adds.keeps
  have held {id : ExprId} (member : id ∈ action.exprs) : before.Holds 0 id :=
    allocated.holds member
  cases action with
  | startBlock =>
      apply (ensures_map _ Analysis.startBlock).2
      apply startBlock_ensures_withScopes.mono
      · rintro _ after ⟨scopes, rfl⟩
        exact keepsDecls_withScopes before scopes
      · rintro _ after ⟨scopes, rfl⟩
        exact ⟨keepsDecls_withScopes before scopes, fun other => absurd rfl other⟩
  | defineObject id initializer =>
      apply (ensures_map _ (Analysis.defineObject id initializer)).2
      exact (defineObject_alters id (held (by simp [exprs]))).mono (fun _ _ alters => alters)
        fun _ _ keeps => ⟨keeps.decls, fun _ => keeps⟩
  | defineFunction id body =>
      apply (ensures_map _ (Analysis.defineFunction id body)).2
      exact (defineFunction_alters id body).mono (fun _ _ alters => alters)
        fun _ _ keeps => ⟨keeps.decls, fun _ => keeps⟩
  | block | breakLoop | continueLoop | expressionStatement | declarationStatement =>
      exact completes_of_keeps rfl fun _ _ => rfl
  | enterParameterScope | enterBlockScope => exact completes_of_keeps rfl fun _ _ => rfl
  | ifElse guard left right =>
      exact completes_of_keeps rfl (keepsThrough_map _ (keepsThrough_of_guarded
        (ifElse_ensures left right (held (by simp [exprs])))))
  | whenTrue guard body =>
      exact completes_of_keeps rfl (keepsThrough_map _ (keepsThrough_of_guarded
        (whenTrue_ensures body (held (by simp [exprs])))))
  | whileTrue guard body =>
      exact completes_of_keeps rfl (keepsThrough_map _ (keepsThrough_of_guarded
        (whileTrue_ensures body (held (by simp [exprs])))))
  | returnValue value =>
      apply completes_of_keeps rfl
      apply keepsThrough_map
      apply (returnValue_ensures (held (by simp [exprs]))).mono ?_ fun _ _ fails => fails.1.keeps
      rintro id after ⟨returned, middle, function, parameters, gives, -, -, puts⟩
      exact puts.keepsDecls gives.1.keeps.decls
  | declareObject kind token type =>
      exact completes_of_keeps rfl (keepsThrough_map _ (keepsThrough_declareNew token _))
  | declareParameter token type =>
      exact completes_of_keeps rfl (keepsThrough_map _ (keepsThrough_declareNew token _))
  | declareFunction token parameters result =>
      exact completes_of_keeps rfl (keepsThrough_map _ (keepsThrough_declareFunction token parameters result))
  | addProgram title declarations =>
      exact completes_of_keeps rfl (keeps_withDecl before ⟨title, .unknown, .program declarations⟩).decls
  | enterGlobalScope => exact completes_of_keeps rfl (keepsThrough_map _ keepsThrough_enterGlobalScope)
  | leaveScope => exact completes_of_keeps rfl (keepsThrough_map _ keepsThrough_leaveScope)
  | declare declaration =>
      exact completes_of_keeps rfl (keepsThrough_map _ (keepsThrough_declare declaration))
  | _ => exact absurd rfl onlyAdds

/-! ## Runs -/

/-- The declaration that an action has completed. -/
def Action.completes? (action : Action) : Except Diagnostic Answer → Option DeclId
  | .ok _ => action.completed?
  | .error _ => none

/-- What an action leaves as it was. -/
structure Action.Leaves (action : Action) (outcome : Except Diagnostic Answer)
    (before after : Analysis) : Prop where
  /-- No expression is lost. -/
  exprs_le : before.ast.exprs.size ≤ after.ast.exprs.size
  /-- Expressions are as they were. -/
  expr_eq (id : ExprId) : id.index < before.ast.exprs.size → after.ast.expr id = before.ast.expr id
  /-- No statement is lost. -/
  stmts_le : before.ast.stmts.size ≤ after.ast.stmts.size
  /-- Statements are as they were. -/
  stmt_eq (id : StmtId) : id.index < before.ast.stmts.size → after.ast.stmt id = before.ast.stmt id
  /-- No declaration is lost. -/
  decls_le : before.ast.decls.size ≤ after.ast.decls.size
  /-- Declarations are as they were, but for one that has been completed. -/
  decl_eq (id : DeclId) : id.index < before.ast.decls.size → action.completes? outcome ≠ some id →
    after.ast.decl id = before.ast.decl id
  /-- A declaration that has been completed has got what it did not have. -/
  changes (id : DeclId) : action.completes? outcome = some id →
    action.Changes (before.ast.decl id) (after.ast.decl id)
  /-- A failure leaves scopes alone, unless a block is started. -/
  scopes_eq (error : Diagnostic) : outcome = .error error → action ≠ .startBlock →
    after.scopes = before.scopes
  /-- A failure leaves the function alone that is being defined, unless a block is started. -/
  function_eq (error : Diagnostic) : outcome = .error error → action ≠ .startBlock →
    after.function = before.function

theorem Action.leaves_of_run {action : Action} {before after : Analysis}
    {outcome : Except Diagnostic Answer} (allocated : action.Allocated before)
    (run : action.run before = (outcome, after)) : action.Leaves outcome before after := by
  have completes := action.perform_completes allocated
  have grows := (action.run_grows allocated).extends'
  rw [run] at grows
  rw [Action.run] at run
  cases outcome with
  | ok answer =>
      replace completes := completes.result run
      rw [Action.Completes] at completes
      refine ⟨grows.exprs_le, grows.expr_eq, grows.stmts_le, grows.stmt_eq, grows.decls_le,
        ?_, ?_, ?_, ?_⟩
      · intro id id_lt other
        rw [Action.completes?] at other
        split at completes
        · next completed found =>
          rw [found] at other
          exact completes.others id id_lt fun same => other (congrArg some same.symm)
        · exact completes id id_lt
      · intro id found
        rw [Action.completes?] at found
        rw [found] at completes
        exact completes.changes
      · intro error failed
        cases failed
      · intro error failed
        cases failed
  | error error =>
      replace completes := completes.error run
      refine ⟨grows.exprs_le, grows.expr_eq, grows.stmts_le, grows.stmt_eq, grows.decls_le,
        ?_, ?_, ?_, ?_⟩
      · exact fun id id_lt _ => completes.1 id id_lt
      · intro id completed
        cases completed
      · exact fun _ _ other => (completes.2 other).scopes_eq
      · exact fun _ _ other => (completes.2 other).function_eq

theorem Action.run_leaves {action : Action} {before : Analysis} (allocated : action.Allocated before) :
    action.Leaves (action.run before).1 before (action.run before).2 :=
  action.leaves_of_run allocated (Prod.eta _).symm

/-- The declarations that have been completed by actions with their outcomes, in order. -/
def completions (actions : List Action) (outcomes : List (Except Diagnostic Answer)) : List DeclId :=
  (actions.zip outcomes).filterMap fun taken => taken.1.completes? taken.2

/-- An action completes what was not complete. -/
theorem Action.Leaves.isComplete {action : Action} {outcome : Except Diagnostic Answer}
    {before after : Analysis} (leaves : action.Leaves outcome before after) {id : DeclId}
    (completed : action.completes? outcome = some id) :
    (before.ast.kindOf id).isComplete = false ∧ (after.ast.kindOf id).isComplete = true := by
  have changes := leaves.changes id completed
  have initializes (changed : Initializes (before.ast.decl id) (after.ast.decl id)) :
      (before.ast.kindOf id).isComplete = false ∧ (after.ast.kindOf id).isComplete = true := by
    obtain ⟨kind, type, initializer, open', after_eq⟩ := changed
    rw [Ast.kindOf, Ast.kindOf, open', after_eq]
    exact ⟨rfl, rfl⟩
  cases action with
  | defineFunction declaration body =>
      obtain ⟨type, parameters, open', after_eq⟩ := changes
      rw [Ast.kindOf, Ast.kindOf, open', after_eq]
      exact ⟨rfl, rfl⟩
  | _ => exact initializes changes

/-- In a whole run nothing is completed twice, and nothing that was complete before. -/
theorem completions_nodup {actions : List Action} {before : Analysis}
    (allocated : AllAllocated actions before) :
    (completions actions (runAll actions before).1).Nodup ∧
      ∀ id ∈ completions actions (runAll actions before).1,
        (before.ast.kindOf id).isComplete = false := by
  induction actions generalizing before with
  | nil => exact ⟨.nil, by simp [completions]⟩
  | cons action actions induction =>
      obtain ⟨nodup, incomplete⟩ := induction allocated.2
      have leaves := action.run_leaves allocated.1
      have earlier {id : DeclId}
          (incomplete : ((action.run before).2.ast.kindOf id).isComplete = false) :
          (before.ast.kindOf id).isComplete = false := by
        rw [← Bool.not_eq_true]
        intro complete
        have declared : id.index < before.ast.decls.size := by
          cases kind_eq : before.ast.kindOf id with
          | object | function => exact Ast.index_lt_of_type? (by rw [kind_eq, DeclKind.type?])
          | parameter | program => simp [kind_eq, DeclKind.isComplete] at complete
        have completes := (action.run_grows allocated.1).extends'.completes id declared
        rw [completes.isComplete complete] at incomplete
        cases incomplete
      have completions_eq : completions (action :: actions) (runAll (action :: actions) before).1 =
          (action.completes? (action.run before).1).toList ++
            completions actions (runAll actions (action.run before).2).1 := by
        rw [completions, runAll, List.zip_cons_cons, List.filterMap_cons]
        cases action.completes? (action.run before).1 <;> rfl
      rw [completions_eq]
      generalize completions actions (runAll actions (action.run before).2).1 = later at *
      cases completed : action.completes? (action.run before).1 with
      | none => exact ⟨nodup, fun id member => earlier (incomplete id member)⟩
      | some id =>
          obtain ⟨before_eq, after_eq⟩ := leaves.isComplete completed
          constructor
          · refine List.nodup_cons.2 ⟨fun member => ?_, nodup⟩
            rw [incomplete id member] at after_eq
            cases after_eq
          · exact List.forall_mem_cons.2 ⟨before_eq, fun other member => earlier (incomplete other member)⟩

end Analysis

end Minilang
