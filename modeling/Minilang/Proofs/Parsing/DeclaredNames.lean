import Minilang.Proofs.Analysis.Declarations
import Minilang.Proofs.Parsing.ContinuedForms
import Minilang.Proofs.Parsing.MirroredForms

/-!
# Declared names

A declaration at the top declares the name behind its word, located there, and nothing that follows changes
this. Where the name has been bound before, the declaration is rejected at the name.
-/

namespace Minilang

/-! ## Every program corresponds to itself -/

namespace Correspondence

/-- A program that is found again as it is. -/
def identity : Correspondence where
  rename name := name
  names _ := True
  injective _ _ _ _ same := same
  places location other := other = location
  fault? := none
  base := .empty
  bound := []

theorem expr_identity : identity.expr = id := funext fun _ => congrArg ExprId.mk (Nat.zero_add _)

theorem stmt_identity : identity.stmt = id := funext fun _ => congrArg StmtId.mk (Nat.zero_add _)

theorem decl_identity : identity.decl = id := funext fun _ => congrArg DeclId.mk (Nat.zero_add _)

theorem exprs_identity (expr : Expr) : identity.Exprs expr expr := by
  refine ⟨?_, rfl, rfl⟩
  cases expr.kind <;> simp [exprKind, expr_identity, decl_identity]

theorem decls_identity (decl : Decl) : identity.Decls decl decl := by
  refine ⟨⟨trivial, rfl⟩, ?_, rfl⟩
  cases decl.kind <;> simp [declKind, expr_identity, stmt_identity, decl_identity]

theorem stmts_identity (stmt : Stmt) : identity.Stmts stmt stmt := by
  cases stmt with
  | block statements => simpa [stmt_identity] using (Stmts.block statements : identity.Stmts _ _)
  | whenTrue guard body =>
      simpa [expr_identity, stmt_identity] using (Stmts.whenTrue guard body : identity.Stmts _ _)
  | ifElse guard whenTrue whenFalse =>
      simpa [expr_identity, stmt_identity] using
        (Stmts.ifElse guard whenTrue whenFalse : identity.Stmts _ _)
  | whileTrue guard body =>
      simpa [expr_identity, stmt_identity] using (Stmts.whileTrue guard body : identity.Stmts _ _)
  | breakLoop => exact .breakLoop rfl
  | continueLoop => exact .continueLoop rfl
  | returnValue value =>
      simpa [expr_identity] using (Stmts.returnValue value : identity.Stmts _ _)
  | declaration declaration =>
      simpa [decl_identity] using (Stmts.declaration declaration : identity.Stmts _ _)
  | expression expression =>
      simpa [expr_identity] using (Stmts.expression expression : identity.Stmts _ _)

variable {correspondence : Correspondence} {depth : Nat}

/-- Tokens belong to themselves. -/
theorem tokens_identity (token : Token) : identity.Tokens token token := by
  refine ⟨⟨fun _ _ => trivial, ?_⟩, rfl⟩
  cases token.kind <;> rfl

theorem streams_identity {tokens : TokenStream} (proper : tokens.Proper)
    (complete : tokens.Complete) : identity.Streams tokens tokens := by
  induction tokens with
  | token first rest induction =>
      exact .token (tokens_identity first) proper.1 (induction proper.2 complete)
  | finished last => exact .finished rfl (tokens_identity last)
  | failed error => exact complete.elim

theorem frames_identity (frames : List Scope) : identity.Frames frames frames := by
  have bindings_eq (bindings : List (String × DeclId)) :
      List.Forall₂ identity.Bindings bindings bindings :=
    List.forall₂_same.2 fun binding _ => ⟨⟨trivial, rfl⟩, by rw [decl_identity, id]⟩
  induction frames with
  | nil => exact .empty
  | cons frame outer induction =>
      cases outer with
      | nil =>
          have alone := Frames.outermost frame.kind (bindings_eq frame.bindings)
          rwa [show identity.bound = [] from rfl, List.append_nil] at alone
      | cons => exact .inner frame.kind (bindings_eq frame.bindings) induction

/-- A state that belongs to another one belongs to itself. -/
theorem States.identity {state other : ParserState} (states : correspondence.States depth state other)
    (proper : state.tokens.Proper) (complete : state.tokens.Complete) :
    identity.States depth state state := by
  refine ⟨streams_identity proper complete, ⟨?_, frames_identity _, states.analyses.depth_eq, ?_⟩⟩
  · have keeps : Ast.empty.Keeps state.analysis.ast :=
      ⟨fun _ bound => absurd bound (Nat.not_lt_zero _), fun _ bound => absurd bound (Nat.not_lt_zero _),
        fun _ bound => absurd bound (Nat.not_lt_zero _)⟩
    refine ⟨(Nat.zero_add _).symm, (Nat.zero_add _).symm, (Nat.zero_add _).symm, ?_, ?_, ?_, keeps,
      states.analyses.asts.parameter_lt⟩
    · intro id _
      rw [expr_identity]
      exact exprs_identity _
    · intro id _
      rw [stmt_identity]
      exact stmts_identity _
    · intro id _
      rw [decl_identity]
      exact decls_identity _
  · rw [decl_identity, Option.map_id]
    rfl

/-- In the outermost frame, a name is not bound once more that was bound there before. -/
theorem Frames.declare_bound {frames otherFrames : List Scope} {name otherName : String}
    (same : correspondence.Frames frames otherFrames) (outermost : frames.length = 1)
    (names : correspondence.Names name otherName)
    (bound : (correspondence.bound.lookup otherName).isSome) (declaration : DeclId) :
    ∃ existing, (⟨otherFrames⟩ : ScopeChain).declare otherName declaration = .error existing := by
  cases same with
  | empty => cases outermost
  | @outermost kind bindings others bindings_eq =>
      have found := lookup_of_bindings bindings_eq names correspondence.bound
      obtain ⟨existing, bound⟩ := Option.isSome_iff_exists.1 bound
      rw [bound] at found
      simp only [ScopeChain.declare, Scope.get?, found]
      cases (bindings.lookup name).map correspondence.decl with
      | none => exact ⟨existing, rfl⟩
      | some earlier => exact ⟨earlier, rfl⟩
  | inner => cases outermost

end Correspondence

/-! ## Steps that declare -/

namespace Analysis

variable {before : Analysis} {token : Token} {name : String} {existing : DeclId}

/-- Whether a step fails with an error. -/
def Rejected {α : Type} (step : Check α) (before : Analysis) (error : Diagnostic) : Prop :=
  Ensures step before (fun _ _ => False) fun reported _ => reported = error

/-- A name that is bound in the innermost scope is not declared there once more. -/
theorem declare_bound {id : DeclId} {location : Location} {kind : DeclKind}
    (declared : before.ast.decl id = ⟨name, location, kind⟩)
    (bound : before.scopes.declare name id = .error existing) :
    Rejected (declare id) before (.semantic location (.redeclaration name)) := by
  rw [Rejected, declare, ensures_bind, ensures_decl, ensures_bind, ensures_get, declared, bound]
  rfl

theorem declareNew_bound (kind : DeclKind) (spelled : token.kind = .identifier name)
    (bound : before.scopes.declare name ⟨before.ast.decls.size⟩ = .error existing) :
    Rejected (declareNew token kind) before
      (.semantic token.location (.redeclaration name)) := by
  rw [Rejected, declareNew, nameOf, spelled, ensures_bind, ensures_pure, ensures_bind, ensures_addDecl,
    ensures_bind]
  exact declare_bound (Ast.decl_addDecl_self before.ast _) bound

theorem declareFunction_bound (parameters : List DeclId) (result : Ty)
    (outside : before.function = none) (spelled : token.kind = .identifier name)
    (bound : before.scopes.declare name ⟨before.ast.decls.size⟩ = .error existing) :
    Rejected (declareFunction token parameters result) before
      (.semantic token.location (.redeclaration name)) := by
  rw [Rejected, declareFunction, nameOf, spelled, ensures_bind, ensures_pure, ensures_bind, ensures_get,
    outside, Option.isSome_none, if_neg Bool.false_ne_true, ensures_bind, ensures_addDecl,
    ensures_bind]
  exact declare_bound (Ast.decl_addDecl_self before.ast _) bound

/-- Whether a step gives nothing but one result. -/
def Returns (step : Check DeclId) (id : DeclId) : Prop :=
  ∀ before, Ensures step before (fun result _ => result = id) fun _ _ => True

theorem Returns.bind {α : Type} {step : Check α} {next : α → Check DeclId} {id : DeclId}
    (returns : ∀ result, Returns (next result) id) : Returns (step >>= next) id := by
  intro before
  rw [ensures_bind]
  unfold Ensures
  split
  · next result after _ => exact returns result after
  · trivial

theorem Returns.pure (id : DeclId) : Returns (Pure.pure id) id := fun _ => rfl

theorem Returns.ite {condition : Prop} [Decidable condition] {first second : Check DeclId}
    {id : DeclId} (whenTrue : Returns first id) (whenFalse : Returns second id) :
    Returns (if condition then first else second) id := by
  split
  · exact whenTrue
  · exact whenFalse

theorem defineFunction_returns (id : DeclId) (body : StmtId) :
    Returns (defineFunction id body) id := by
  refine .bind fun analysis => .ite (.bind fun _ => .bind fun decl => ?_) (.bind fun decl => ?_)
  all_goals split <;> exact .bind fun _ => .bind fun _ => .pure id

theorem defineObject_returns (id : DeclId) (initializer : ExprId) :
    Returns (defineObject id initializer) id := by
  refine .bind fun value => .bind fun decl => ?_
  dsimp only
  split
  all_goals
    refine .bind fun _ => .bind fun analysis => ?_
    refine .ite (.bind fun _ => .bind fun _ => ?_) ?_
    all_goals split <;> exact .bind fun _ => .pure id

end Analysis

namespace Parser

variable {correspondence : Correspondence} {depth later : Nat} {before after other : ParserState}
  {fuel : Nat} {id declared : DeclId}

/-- What a parser keeps that is mirrored by itself. -/
theorem Mirrors.run_self {α : Type} {parser : Parser α} {gives : Analysis → α → α → Prop}
    {result : α} (mirrors : Mirrors .identity depth later parser parser before gives)
    (states : Correspondence.identity.States depth before before)
    (run : parser.run before = .ok (result, after)) :
    before.analysis.Precedes after.analysis ∧ Correspondence.identity.States later after after ∧
      gives after.analysis result result := by
  have outcome := mirrors before states
  rw [run] at outcome
  obtain ⟨_, _, same, precedes, states, given⟩ := outcome
  cases same
  exact ⟨precedes, states, given⟩

theorem objectEnd_returns (run : (objectEnd declared fuel).run before = .ok (id, after)) :
    id = declared := by
  obtain ⟨_, _, -, run⟩ := run_bind_ok run
  obtain ⟨initializer, _, -, run⟩ := run_bind_ok run
  obtain ⟨_, middle, -, run⟩ := run_bind_ok run
  have returned := Analysis.defineObject_returns declared initializer middle.analysis
  rwa [Analysis.Ensures, (check_ok run).1] at returned

theorem functionEnd_returns (run : (functionEnd declared fuel).run before = .ok (id, after)) :
    id = declared := by
  obtain ⟨body, middle, -, run⟩ := run_bind_ok run
  have returned := Analysis.defineFunction_returns declared body middle.analysis
  rwa [Analysis.Ensures, (check_ok run).1] at returned

theorem run_check_of_rejected {α : Type} {step : Check α} {error : Diagnostic}
    (rejected : Analysis.Rejected step before.analysis error) :
    (check step).run before = .error error := by
  rw [Analysis.Rejected, Analysis.Ensures] at rejected
  split at rejected
  · exact rejected.elim
  · next reported analysis run => exact rejected ▸ run_check_of_error run

/-- Whether a declaration is called and stands where a token says. -/
def Heads (token : Token) (id : DeclId) (analysis : Analysis) : Prop :=
  id.index < analysis.ast.decls.size ∧ token.kind = .identifier (analysis.ast.decl id).name ∧
    (analysis.ast.decl id).location = token.location

theorem Heads.mono {token : Token} {analysis later : Analysis} (heads : Heads token id analysis)
    (precedes : analysis.Precedes later) : Heads token id later := by
  obtain ⟨bound, spelled, location_eq⟩ := heads
  obtain ⟨name_eq, place_eq⟩ := precedes.head_eq id bound
  exact ⟨bound.trans_le precedes.decls_le, spelled.trans (name_eq ▸ rfl), place_eq.trans location_eq⟩

/-- A declaration that has just been added. -/
theorem heads_addDecl {token : Token} {name : String} {ast : Ast} {state : Analysis} (kind : DeclKind)
    (spelled : token.kind = .identifier name)
    (same : state.ast = (ast.addDecl ⟨name, token.location, kind⟩).2) :
    Heads token ⟨ast.decls.size⟩ state := by
  have added : state.ast.decl ⟨ast.decls.size⟩ = ⟨name, token.location, kind⟩ := by
    rw [same]
    exact Ast.decl_addDecl_self ast _
  refine ⟨?_, by rw [added, spelled], by rw [added]⟩
  rw [same]
  exact (Array.size_push _).symm ▸ Nat.lt_succ_self _

section Forms

variable (states : Correspondence.identity.States 1 before before)

include states

theorem object_heads {kind : ObjectKind} (run : (object kind fuel).run before = .ok (id, after)) :
    ∃ token, before.tokens.lookahead 1 = .ok token ∧ Heads token id after.analysis ∧
      Correspondence.identity.States 1 after after := by
  rw [object_eq_head_end] at run
  obtain ⟨⟨token, type⟩, middle, runHead, run⟩ := run_bind_ok run
  obtain ⟨declared, state, runStep, run⟩ := run_bind_ok run
  have found := objectHead_name runHead
  obtain ⟨-, states, -⟩ := (objectHead_mirrors kind fuel).run_self states runHead
  have heads : Heads token declared state.analysis := by
    have added := @Analysis.declareObject_ensures middle.analysis kind token type
    rw [Analysis.Ensures, (check_ok runStep).1] at added
    obtain ⟨name, scopes, spelled, rfl, -, same⟩ := added
    exact heads_addDecl (.object kind type none) spelled (congrArg Analysis.ast same)
  obtain ⟨-, states, bound, -⟩ := (Mirrors.check (Analysis.declareObject_mirrors
    (Correspondence.tokens_identity token) (.inr fun _ _ => rfl) kind type)).run_self states runStep
  have ending := @objectEnd_mirrors .identity 1 state Nat.one_pos declared bound fuel
  rw [Correspondence.decl_identity] at ending
  obtain ⟨precedes, states, -⟩ := ending.run_self states run
  obtain rfl := objectEnd_returns run
  exact ⟨token, found, heads.mono precedes, states⟩

theorem function_heads (run : (function fuel).run before = .ok (id, after)) :
    ∃ token, before.tokens.lookahead 1 = .ok token ∧ Heads token id after.analysis ∧
      Correspondence.identity.States 1 after after := by
  rw [function_eq_head_end] at run
  obtain ⟨⟨token, parameters, result⟩, middle, runHead, run⟩ := run_bind_ok run
  obtain ⟨declared, state, runStep, run⟩ := run_bind_ok run
  have found := functionHead_name runHead
  obtain ⟨-, states, -, parameter_lt, -⟩ :=
    (functionHead_mirrors Nat.one_pos fuel).run_self states runHead
  have heads : Heads token declared state.analysis := by
    have added := @Analysis.declareFunction_ensures middle.analysis token parameters result
    rw [Analysis.Ensures, (check_ok runStep).1] at added
    obtain ⟨name, scopes, spelled, -, rfl, -, same⟩ := added
    exact heads_addDecl (.function _ parameters none) spelled (congrArg Analysis.ast same)
  have free : Analysis.Free .identity 1 token := .inr fun _ _ => rfl
  have step := Mirrors.check (Analysis.declareFunction_mirrors
    (Correspondence.tokens_identity token) free parameter_lt result)
  rw [Correspondence.decl_identity, List.map_id] at step
  obtain ⟨-, states, bound, -⟩ := step.run_self states runStep
  have ending := @functionEnd_mirrors .identity 1 state Nat.one_pos declared bound fuel
  rw [Correspondence.decl_identity] at ending
  obtain ⟨precedes, states, -⟩ := ending.run_self states run
  obtain rfl := functionEnd_returns run
  exact ⟨token, found, heads.mono precedes, states⟩

end Forms

section Clashes

variable {token : Token} {name : String} (states : correspondence.States 1 before other)
  (found : before.tokens.lookahead 1 = .ok token) (spelled : token.kind = .identifier name)
  (bound : (correspondence.bound.lookup (correspondence.rename name)).isSome)

include states found spelled bound

/-- Where a name has been bound before, the declaration is rejected there. -/
theorem object_clashes {kind : ObjectKind} (run : (object kind fuel).run before = .ok (id, after)) :
    ∃ location, correspondence.places token.location location ∧ (object kind fuel).run other =
      .error (.semantic location (.redeclaration (correspondence.rename name))) := by
  rw [object_eq_head_end] at run
  obtain ⟨⟨named, type⟩, middle, runHead, -⟩ := run_bind_ok run
  cases found.symm.trans (objectHead_name runHead)
  have outcome := objectHead_mirrors kind fuel other states
  rw [runHead] at outcome
  obtain ⟨⟨otherToken, otherType⟩, otherMiddle, otherRun, -, states, tokens, -⟩ := outcome
  have otherSpelled := tokens.kinds.2
  rw [spelled] at otherSpelled
  obtain ⟨existing, clash⟩ := states.analyses.frames.declare_bound states.analyses.depth_eq
    ⟨tokens.kinds.1 name spelled, rfl⟩ bound ⟨otherMiddle.analysis.ast.decls.size⟩
  have rejected := run_check_of_rejected
    (Analysis.declareNew_bound (.object kind otherType none) otherSpelled clash)
  refine ⟨otherToken.location, tokens.places, ?_⟩
  rw [object_eq_head_end, run_bind_of_ok otherRun, run_bind, Analysis.declareObject, rejected]

theorem function_clashes (run : (function fuel).run before = .ok (id, after)) :
    ∃ location, correspondence.places token.location location ∧ (function fuel).run other =
      .error (.semantic location (.redeclaration (correspondence.rename name))) := by
  rw [function_eq_head_end] at run
  obtain ⟨⟨named, parameters, result⟩, middle, runHead, run⟩ := run_bind_ok run
  obtain ⟨declared, state, runStep, -⟩ := run_bind_ok run
  cases found.symm.trans (functionHead_name runHead)
  have outcome := functionHead_mirrors Nat.one_pos fuel other states
  rw [runHead] at outcome
  obtain ⟨⟨otherToken, others, _⟩, otherMiddle, otherRun, -, states, tokens, -⟩ := outcome
  have otherSpelled := tokens.kinds.2
  rw [spelled] at otherSpelled
  have outside : otherMiddle.analysis.function = none := by
    have added := @Analysis.declareFunction_ensures middle.analysis named parameters result
    rw [Analysis.Ensures, (check_ok runStep).1] at added
    obtain ⟨-, -, -, outside, -⟩ := added
    rw [states.analyses.function_eq, outside, Option.map_none]
  obtain ⟨existing, clash⟩ := states.analyses.frames.declare_bound states.analyses.depth_eq
    ⟨tokens.kinds.1 name spelled, rfl⟩ bound ⟨otherMiddle.analysis.ast.decls.size⟩
  refine ⟨otherToken.location, tokens.places, ?_⟩
  rw [function_eq_head_end, run_bind_of_ok otherRun, run_bind,
    run_check_of_rejected (Analysis.declareFunction_bound _ _ outside otherSpelled clash)]

end Clashes

/-- Which form a declaration takes shows in tokens that belong to each other. -/
theorem declaration_form (states : correspondence.States depth before other)
    (run : (declaration fuel).run before = .ok (id, after)) :
    (∃ kind, (declaration fuel).run before = (object kind fuel).run before ∧
      (declaration fuel).run other = (object kind fuel).run other) ∨
    (declaration fuel).run before = (function fuel).run before ∧
      (declaration fuel).run other = (function fuel).run other := by
  obtain ⟨kind, _, peeked, run⟩ := run_bind_ok run
  obtain rfl := peek_ok peeked
  have outcome := peek_mirrors other states
  rw [peeked] at outcome
  obtain ⟨_, _, otherPeeked, -, -, -, rfl⟩ := outcome
  obtain rfl := peek_ok otherPeeked
  rw [declaration, run_bind_of_ok peeked, run_bind_of_ok otherPeeked]
  cases kind with
  | keyword word =>
      cases word with
      | varWord => exact .inl ⟨.var, rfl, rfl⟩
      | letWord => exact .inl ⟨.const, rfl, rfl⟩
      | defWord =>
          obtain ⟨token, _, looked, run⟩ := run_bind_ok run
          have outcome := lookahead_mirrors 2 _ states
          obtain ⟨-, rfl⟩ := lookahead_ok looked
          rw [looked] at outcome
          obtain ⟨otherToken, _, otherLooked, -, -, tokens⟩ := outcome
          obtain ⟨-, rfl⟩ := lookahead_ok otherLooked
          simp only [TokenKind.rename]
          rw [run_bind_of_ok looked, run_bind_of_ok otherLooked, tokens.kinds.2]
          generalize token.kind = third at run ⊢
          cases third with
          | punctuation sign =>
              cases sign with
              | colon => exact .inl ⟨.value, rfl, rfl⟩
              | leftParen => exact .inr ⟨rfl, rfl⟩
              | _ => exact absurd run (misplacedDefinition_fails _ _ _ _)
          | _ => exact absurd run (misplacedDefinition_fails _ _ _ _)
      | _ => exact absurd run (unexpected_fails _ _ _ _)
  | _ => exact absurd run (unexpected_fails _ _ _ _)

/-- A declaration is called and stands where the token behind its word says. -/
theorem declaration_heads (states : Correspondence.identity.States 1 before before)
    (run : (declaration fuel).run before = .ok (id, after)) :
    ∃ token, before.tokens.lookahead 1 = .ok token ∧ Heads token id after.analysis ∧
      Correspondence.identity.States 1 after after := by
  obtain ⟨kind, same, -⟩ | ⟨same, -⟩ := declaration_form states run
  · exact object_heads states (same ▸ run)
  · exact function_heads states (same ▸ run)

/-- Where its name has been bound before, a declaration is rejected at its name. -/
theorem declaration_clashes {token : Token} {name : String}
    (states : correspondence.States 1 before other) (found : before.tokens.lookahead 1 = .ok token)
    (spelled : token.kind = .identifier name)
    (bound : (correspondence.bound.lookup (correspondence.rename name)).isSome)
    (run : (declaration fuel).run before = .ok (id, after)) :
    ∃ location, correspondence.places token.location location ∧ (declaration fuel).run other =
      .error (.semantic location (.redeclaration (correspondence.rename name))) := by
  obtain ⟨kind, same, otherSame⟩ | ⟨same, otherSame⟩ := declaration_form states run
  · rw [otherSame]
    exact object_clashes states found spelled bound (same ▸ run)
  · rw [otherSame]
    exact function_clashes states found spelled bound (same ▸ run)

end Parser

end Minilang
