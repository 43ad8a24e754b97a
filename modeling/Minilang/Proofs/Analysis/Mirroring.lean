import Minilang.Proofs.Analysis.Correspondence
import Minilang.Proofs.Analysis.Outcome

/-!
# Mirrored steps of analysis

Two analyses that correspond stay so when both take the same step, since no step tells apart what
corresponds: it asks which names are the same, but neither how they are spelled nor where they stand. Where
something was there before, a step that succeeds without it succeeds with it as well.
-/

namespace Minilang

namespace Correspondence

variable (correspondence : Correspondence)

/-- Whether two bindings belong together. -/
def Bindings (binding other : String × DeclId) : Prop :=
  correspondence.Names binding.1 other.1 ∧ other.2 = correspondence.decl binding.2

/-- Whether two stacks of frames belong together. The names that were bound before are in the outermost
frame. -/
inductive Frames : List Scope → List Scope → Prop
  | empty : Frames [] []
  | outermost (kind : ScopeKind) {bindings others : List (String × DeclId)} :
      List.Forall₂ correspondence.Bindings bindings others →
      Frames [⟨kind, bindings⟩] [⟨kind, others ++ correspondence.bound⟩]
  | inner (kind : ScopeKind) {bindings others : List (String × DeclId)} {frame otherFrame : Scope}
      {outer otherOuter : List Scope} :
      List.Forall₂ correspondence.Bindings bindings others →
      Frames (frame :: outer) (otherFrame :: otherOuter) →
      Frames (⟨kind, bindings⟩ :: frame :: outer) (⟨kind, others⟩ :: otherFrame :: otherOuter)

/-- Whether two analyses belong together, in the given number of scopes. -/
structure Analyses (depth : Nat) (analysis other : Analysis) : Prop where
  /-- The programs correspond. -/
  asts : correspondence.Asts analysis.ast other.ast
  /-- The scopes correspond. -/
  frames : correspondence.Frames analysis.scopes.frames other.scopes.frames
  /-- The number of open scopes. -/
  depth_eq : analysis.scopes.depth = depth
  /-- The same function is being defined. -/
  function_eq : other.function = analysis.function.map correspondence.decl

/-- Whether the results of two steps are the same expression. -/
def ExprIds (after : Analysis) (id other : ExprId) : Prop :=
  id.index < after.ast.exprs.size ∧ other = correspondence.expr id

/-- Whether the results of two steps are the same statement. -/
def StmtIds (_after : Analysis) (id other : StmtId) : Prop := other = correspondence.stmt id

/-- Whether the results of two steps are the same declaration. -/
def DeclIds (after : Analysis) (id other : DeclId) : Prop :=
  id.index < after.ast.decls.size ∧ other = correspondence.decl id

variable {correspondence} {bindings others : List (String × DeclId)} {name otherName : String}

/-- A name is bound alike in two frames that belong together. -/
theorem lookup_of_bindings (bindings_eq : List.Forall₂ correspondence.Bindings bindings others)
    (names : correspondence.Names name otherName) (before : List (String × DeclId)) :
    (others ++ before).lookup otherName =
      ((bindings.lookup name).map correspondence.decl).or (before.lookup otherName) := by
  induction bindings_eq with
  | nil => rfl
  | @cons binding other bindings others both _ induction =>
      obtain ⟨bound, declaration⟩ := binding
      obtain ⟨otherBound, otherDeclaration⟩ := other
      obtain ⟨boundNames, rfl⟩ := both
      rw [List.cons_append, List.lookup_cons, List.lookup_cons]
      by_cases same : name = bound
      · have otherSame : otherName = otherBound := (names.eq_iff boundNames).2 same
        rw [beq_iff_eq.2 same, beq_iff_eq.2 otherSame]
        rfl
      · have otherSame : otherName ≠ otherBound := mt (names.eq_iff boundNames).1 same
        rw [beq_eq_false_iff_ne.2 same, beq_eq_false_iff_ne.2 otherSame]
        exact induction

/-- A name means the same in scopes that belong together, unless it means something only where names were
bound before. -/
theorem Frames.lookup {frames otherFrames : List Scope}
    (same : correspondence.Frames frames otherFrames)
    (names : correspondence.Names name otherName) (some_frame : frames ≠ []) :
    (⟨otherFrames⟩ : ScopeChain).lookup otherName =
      (((⟨frames⟩ : ScopeChain).lookup name).map correspondence.decl).or
        (correspondence.bound.lookup otherName) := by
  induction same with
  | empty => exact absurd rfl some_frame
  | outermost kind bindings_eq =>
      rw [ScopeChain.lookup, ScopeChain.lookup, List.findSome?_singleton, List.findSome?_singleton]
      exact lookup_of_bindings bindings_eq names correspondence.bound
  | @inner kind bindings others frame otherFrame outer otherOuter bindings_eq _ induction =>
      have here := lookup_of_bindings bindings_eq names []
      rw [List.append_nil, List.lookup_nil, Option.or_none] at here
      have behind := induction (List.cons_ne_nil _ _)
      have split (frame : Scope) (outer : List Scope) (name : String) :
          (⟨frame :: outer⟩ : ScopeChain).lookup name =
            (frame.bindings.lookup name).or ((⟨outer⟩ : ScopeChain).lookup name) := by
        rw [ScopeChain.lookup, List.findSome?_cons, Scope.get?]
        cases frame.bindings.lookup name <;> rfl
      rw [split _ (otherFrame :: otherOuter), split _ (frame :: outer), here, behind]
      cases bindings.lookup name with
      | some declaration => rfl
      | none => rfl

theorem Frames.length_eq {frames otherFrames : List Scope}
    (same : correspondence.Frames frames otherFrames) : otherFrames.length = frames.length := by
  induction same with
  | empty | outermost => rfl
  | inner _ _ _ induction => exact congrArg (· + 1) induction

theorem Frames.kinds_eq {frames otherFrames : List Scope}
    (same : correspondence.Frames frames otherFrames) :
    otherFrames.map Scope.kind = frames.map Scope.kind := by
  induction same with
  | empty | outermost => rfl
  | inner kind _ _ induction => exact congrArg (kind :: ·) induction

/-- A new innermost frame is put on both stacks. On empty ones nothing may be bound before. -/
theorem Frames.push {frames otherFrames : List Scope}
    (same : correspondence.Frames frames otherFrames) (kind : ScopeKind)
    (inside : frames ≠ [] ∨ correspondence.bound = []) :
    correspondence.Frames (.ofKind kind :: frames) (.ofKind kind :: otherFrames) := by
  cases same with
  | empty =>
      have unbound := inside.resolve_left (not_not_intro rfl)
      have alone : correspondence.Frames [⟨kind, []⟩] [⟨kind, [] ++ correspondence.bound⟩] :=
        .outermost kind .nil
      rwa [unbound] at alone
  | outermost other bindings_eq => exact .inner kind .nil (.outermost other bindings_eq)
  | inner other bindings_eq outer => exact .inner kind .nil (.inner other bindings_eq outer)

/-- The innermost frame is taken off both stacks. -/
theorem Frames.tail {frame otherFrame : Scope} {outer otherOuter : List Scope}
    (same : correspondence.Frames (frame :: outer) (otherFrame :: otherOuter)) :
    correspondence.Frames outer otherOuter := by
  cases same with
  | outermost => exact .empty
  | inner _ _ outer => exact outer

/-- A name is bound in the innermost frames of both stacks, unless it was bound in the outermost one
before. -/
theorem Frames.declare {frames otherFrames : List Scope}
    (same : correspondence.Frames frames otherFrames)
    (names : correspondence.Names name otherName) (declaration : DeclId)
    (free : 2 ≤ frames.length ∨ correspondence.bound.lookup otherName = none) :
    (∀ after, (⟨frames⟩ : ScopeChain).declare name declaration = .ok after →
      ∃ otherAfter, (⟨otherFrames⟩ : ScopeChain).declare otherName
          (correspondence.decl declaration) = .ok otherAfter ∧
        correspondence.Frames after.frames otherAfter.frames ∧
        after.frames.length = frames.length) ∧
    ∀ existing, (⟨frames⟩ : ScopeChain).declare name declaration = .error existing →
      ∃ otherExisting, (⟨otherFrames⟩ : ScopeChain).declare otherName
        (correspondence.decl declaration) = .error otherExisting := by
  have binding : correspondence.Bindings (name, declaration)
      (otherName, correspondence.decl declaration) := ⟨names, rfl⟩
  cases same with
  | empty => exact ⟨(fun _ declared => by cases declared), fun _ _ => ⟨_, rfl⟩⟩
  | @outermost kind bindings others bindings_eq =>
      have unbound : correspondence.bound.lookup otherName = none :=
        free.resolve_left (by simp)
      have found := lookup_of_bindings bindings_eq names correspondence.bound
      rw [unbound, Option.or_none] at found
      simp only [ScopeChain.declare, Scope.get?, found]
      cases bindings.lookup name with
      | some existing => exact ⟨(fun _ declared => by cases declared), fun _ _ => ⟨_, rfl⟩⟩
      | none =>
          refine ⟨?_, fun _ failed => by cases failed⟩
          rintro _ ⟨rfl⟩
          exact ⟨_, rfl, .outermost kind (.cons binding bindings_eq), rfl⟩
  | @inner kind bindings others frame otherFrame outer otherOuter bindings_eq outer_eq =>
      have found := lookup_of_bindings bindings_eq names []
      rw [List.append_nil, List.lookup_nil, Option.or_none] at found
      simp only [ScopeChain.declare, Scope.get?, found]
      cases bindings.lookup name with
      | some existing => exact ⟨(fun _ declared => by cases declared), fun _ _ => ⟨_, rfl⟩⟩
      | none =>
          refine ⟨?_, fun _ failed => by cases failed⟩
          rintro _ ⟨rfl⟩
          exact ⟨_, rfl, .inner kind (.cons binding bindings_eq) outer_eq, rfl⟩

end Correspondence

namespace Analysis

/-- Whether nothing has been taken away since another state. -/
structure Precedes (before after : Analysis) : Prop where
  /-- Expressions stay. -/
  exprs_le : before.ast.exprs.size ≤ after.ast.exprs.size
  /-- Declarations stay. -/
  decls_le : before.ast.decls.size ≤ after.ast.decls.size
  /-- They keep their names and their places. -/
  head_eq (id : DeclId) : id.index < before.ast.decls.size →
    (after.ast.decl id).name = (before.ast.decl id).name ∧
      (after.ast.decl id).location = (before.ast.decl id).location

theorem Precedes.refl (analysis : Analysis) : analysis.Precedes analysis :=
  ⟨le_rfl, le_rfl, fun _ _ => ⟨rfl, rfl⟩⟩

theorem Precedes.trans {before middle after : Analysis} (first : before.Precedes middle)
    (second : middle.Precedes after) : before.Precedes after where
  exprs_le := first.exprs_le.trans second.exprs_le
  decls_le := first.decls_le.trans second.decls_le
  head_eq id bound :=
    have own := first.head_eq id bound
    have later := second.head_eq id (bound.trans_le first.decls_le)
    ⟨later.1.trans own.1, later.2.trans own.2⟩

/-- Whether a step is mirrored by another one: from analyses that correspond they come to analyses that
correspond, with results that belong together, and if nothing was there before they fail alike. -/
def Mirrors {α β : Type} (correspondence : Correspondence) (depth later : Nat) (step : Check α)
    (other : Check β) (before : Analysis) (gives : Analysis → α → β → Prop) : Prop :=
  ∀ otherBefore, correspondence.Analyses depth before otherBefore →
    Ensures step before
      (fun result after => Ensures other otherBefore
        (fun otherResult otherAfter => before.Precedes after ∧
          correspondence.Analyses later after otherAfter ∧ gives after result otherResult)
        fun _ _ => False)
      fun error _ => correspondence.Exact → Ensures other otherBefore (fun _ _ => False)
        fun otherError _ => correspondence.Diagnostics error otherError

namespace Mirrors

variable {α β γ δ : Type} {correspondence : Correspondence} {depth middleDepth later : Nat}
  {before : Analysis}

theorem mono {step : Check α} {other : Check β} {gives weaker : Analysis → α → β → Prop}
    (mirrors : Mirrors correspondence depth later step other before gives)
    (imp : ∀ after result otherResult, before.Precedes after → gives after result otherResult →
      weaker after result otherResult) :
    Mirrors correspondence depth later step other before weaker := by
  intro otherBefore analyses
  refine (mirrors otherBefore analyses).mono ?_ fun _ _ => id
  intro result after ensures
  refine ensures.mono ?_ fun _ _ => id
  rintro otherResult otherAfter ⟨precedes, later, gives⟩
  exact ⟨precedes, later, imp after result otherResult precedes gives⟩

theorem pure {result : α} {otherResult : β} {gives : Analysis → α → β → Prop}
    (given : gives before result otherResult) :
    Mirrors correspondence depth depth (pure result) (pure otherResult) before gives :=
  fun _ analyses => ⟨.refl before, analyses, given⟩

theorem bind {step : Check α} {other : Check β} {next : α → Check γ} {otherNext : β → Check δ}
    {gives : Analysis → α → β → Prop} {givesNext : Analysis → γ → δ → Prop}
    (mirrors : Mirrors correspondence depth middleDepth step other before gives)
    (mirrorsNext : ∀ middle result otherResult, before.Precedes middle →
      gives middle result otherResult →
      Mirrors correspondence middleDepth later (next result) (otherNext otherResult) middle
        givesNext) :
    Mirrors correspondence depth later (step >>= next) (other >>= otherNext) before givesNext := by
  intro otherBefore analyses
  rw [ensures_bind]
  refine (mirrors otherBefore analyses).mono ?_ ?_
  · intro result middle ensures
    unfold Ensures at ensures
    split at ensures
    · next otherResult otherMiddle run =>
      obtain ⟨precedes, analyses, given⟩ := ensures
      have split {onResult : δ → Analysis → Prop} {onError : Diagnostic → Analysis → Prop}
          (rest : Ensures (otherNext otherResult) otherMiddle onResult onError) :
          Ensures (other >>= otherNext) otherBefore onResult onError := by
        rw [ensures_bind]
        unfold Ensures
        rw [run]
        exact rest
      refine (mirrorsNext middle result otherResult precedes given otherMiddle analyses).mono ?_
        fun _ _ fails exact' => split (fails exact')
      intro last after rest
      refine split (rest.mono ?_ fun _ _ => id)
      rintro otherLast otherAfter ⟨precedesRest, analyses, given⟩
      exact ⟨precedes.trans precedesRest, analyses, given⟩
    · exact ensures.elim
  · intro error after fails exact'
    rw [ensures_bind]
    exact (fails exact').mono (fun _ _ => False.elim) fun _ _ => id

theorem reject {location other : Location} {error otherError : SemanticError}
    {gives : Analysis → α → β → Prop}
    (diagnostics :
      correspondence.Diagnostics (.semantic location error) (.semantic other otherError)) :
    Mirrors correspondence depth later (reject location error) (Analysis.reject other otherError)
      before gives :=
  fun _ _ _ => diagnostics

theorem refuse (error other : InternalError) {gives : Analysis → α → β → Prop} :
    Mirrors correspondence depth later (refuse error) (Analysis.refuse other) before gives :=
  fun _ _ _ => .internal error other

/-- Nothing happens behind a step that fails. -/
theorem reject_bind {location other : Location} {error otherError : SemanticError}
    {next : α → Check γ} {otherNext : β → Check δ} {gives : Analysis → γ → δ → Prop}
    (diagnostics :
      correspondence.Diagnostics (.semantic location error) (.semantic other otherError)) :
    Mirrors correspondence depth later (Analysis.reject location error >>= next)
      (Analysis.reject other otherError >>= otherNext) before gives :=
  fun _ _ _ => diagnostics

theorem refuse_bind (error other : InternalError) {next : α → Check γ} {otherNext : β → Check δ}
    {gives : Analysis → γ → δ → Prop} :
    Mirrors correspondence depth later (Analysis.refuse error >>= next)
      (Analysis.refuse other >>= otherNext) before gives :=
  fun _ _ _ => .internal error other

/-- Both steps decide alike. -/
theorem ite {condition otherCondition : Prop} [Decidable condition] [Decidable otherCondition]
    {first second : Check α} {otherFirst otherSecond : Check β} {gives : Analysis → α → β → Prop}
    (iff : otherCondition ↔ condition)
    (whenTrue : condition → Mirrors correspondence depth later first otherFirst before gives)
    (whenFalse : ¬condition → Mirrors correspondence depth later second otherSecond before gives) :
    Mirrors correspondence depth later (if condition then first else second)
      (if otherCondition then otherFirst else otherSecond) before gives := by
  by_cases holds : condition
  · rw [if_pos holds, if_pos (iff.2 holds)]
    exact whenTrue holds
  · rw [if_neg holds, if_neg (mt iff.1 holds)]
    exact whenFalse holds

/-- The states of both analyses are looked at. -/
theorem get :
    Mirrors correspondence depth depth get get before fun after analysis other =>
      after = before ∧ analysis = before ∧ correspondence.Analyses depth before other :=
  fun _ analyses => ⟨.refl before, analyses, rfl, rfl, analyses⟩

theorem expr {id : ExprId} (bound : id.index < before.ast.exprs.size) :
    Mirrors correspondence depth depth (expr id) (Analysis.expr (correspondence.expr id)) before
      fun after expr other => after = before ∧ correspondence.Exprs expr other :=
  fun _ analyses => ⟨.refl before, analyses, rfl, analyses.asts.expr id bound⟩

theorem decl {id : DeclId} (bound : id.index < before.ast.decls.size) :
    Mirrors correspondence depth depth (decl id) (Analysis.decl (correspondence.decl id)) before
      fun after decl other => after = before ∧ decl = before.ast.decl id ∧
        correspondence.Decls decl other :=
  fun _ analyses => ⟨.refl before, analyses, rfl, rfl, analyses.asts.decl id bound⟩

/-- What a declaration introduces is looked at, whether it is there or not. -/
theorem kindOf (id : DeclId) :
    Mirrors correspondence depth depth (Analysis.decl id) (Analysis.decl (correspondence.decl id))
      before fun after decl other => after = before ∧ decl = before.ast.decl id ∧
        other.kind = correspondence.declKind decl.kind :=
  fun _ analyses => ⟨.refl before, analyses, rfl, rfl, analyses.asts.kindOf_eq id⟩

theorem addExpr {kind otherKind : ExprKind} (kind_eq : otherKind = correspondence.exprKind kind)
    (type : Ty) {location other : Location} (places : correspondence.places location other) :
    Mirrors correspondence depth depth (addExpr kind type location)
      (Analysis.addExpr otherKind type other) before correspondence.ExprIds := by
  intro otherBefore analyses
  rw [ensures_addExpr, ensures_addExpr]
  have size_eq : (before.ast.addExpr ⟨kind, type, location⟩).2.exprs.size =
      before.ast.exprs.size + 1 := Array.size_push _
  refine ⟨⟨size_eq ▸ Nat.le_succ _, le_rfl, fun _ _ => ⟨rfl, rfl⟩⟩,
    { analyses with asts := analyses.asts.addExpr ⟨kind_eq, rfl, places⟩ },
    size_eq ▸ Nat.lt_succ_self _, ?_⟩
  rw [Correspondence.expr, analyses.asts.exprs_size]

theorem addStmt {stmt other : Stmt} (stmts : correspondence.Stmts stmt other) :
    Mirrors correspondence depth depth (addStmt stmt) (Analysis.addStmt other) before
      correspondence.StmtIds := by
  intro otherBefore analyses
  rw [ensures_addStmt, ensures_addStmt]
  refine ⟨⟨le_rfl, le_rfl, fun _ _ => ⟨rfl, rfl⟩⟩,
    { analyses with asts := analyses.asts.addStmt stmts }, ?_⟩
  rw [Correspondence.StmtIds, Correspondence.stmt, analyses.asts.stmts_size]

theorem addDecl {name otherName : String} (names : correspondence.Names name otherName)
    {location other : Location} (places : correspondence.places location other)
    {kind otherKind : DeclKind} (kind_eq : otherKind = correspondence.declKind kind)
    (parameter_lt : ∀ parameter ∈ kind.parameters, parameter.index < before.ast.decls.size) :
    Mirrors correspondence depth depth (addDecl name location kind)
      (Analysis.addDecl otherName other otherKind) before fun after id otherId =>
        correspondence.DeclIds after id otherId ∧ after.ast.decl id = ⟨name, location, kind⟩ := by
  intro otherBefore analyses
  rw [ensures_addDecl, ensures_addDecl]
  have size_eq : (before.ast.addDecl ⟨name, location, kind⟩).2.decls.size =
      before.ast.decls.size + 1 := Array.size_push _
  refine ⟨⟨le_rfl, size_eq ▸ Nat.le_succ _, fun id earlier => ?_⟩,
    { analyses with asts := analyses.asts.addDecl ⟨names, kind_eq, places⟩ parameter_lt },
    ⟨size_eq ▸ Nat.lt_succ_self _, ?_⟩, Ast.decl_addDecl_self _ _⟩
  · rw [Ast.decl_addDecl_of_lt earlier]
    exact ⟨rfl, rfl⟩
  · rw [Correspondence.decl, analyses.asts.decls_size]

theorem setDeclKind {id : DeclId} (declared : id.index < before.ast.decls.size)
    {kind otherKind : DeclKind} (kind_eq : otherKind = correspondence.declKind kind)
    (parameter_lt : ∀ parameter ∈ kind.parameters, parameter.index < before.ast.decls.size) :
    Mirrors correspondence depth depth (setDeclKind id kind)
      (Analysis.setDeclKind (correspondence.decl id) otherKind) before fun after _ _ =>
        after.ast.decls.size = before.ast.decls.size := by
  intro otherBefore analyses
  rw [ensures_setDeclKind, ensures_setDeclKind, kind_eq]
  have size_eq : (before.ast.setDeclKind id kind).decls.size = before.ast.decls.size :=
    Array.size_modify
  refine ⟨⟨le_rfl, size_eq.ge, fun other _ => ?_⟩,
    { analyses with asts := analyses.asts.setDeclKind declared parameter_lt }, size_eq⟩
  rw [Ast.decl_setDeclKind _ _ _ _ declared]
  split
  · next same =>
    rw [same]
    exact ⟨rfl, rfl⟩
  · exact ⟨rfl, rfl⟩

theorem setFunction (function : Option DeclId) :
    Mirrors correspondence depth depth (setFunction function)
      (Analysis.setFunction (function.map correspondence.decl)) before fun after _ _ =>
        after.ast = before.ast :=
  fun _ analyses => ⟨⟨le_rfl, le_rfl, fun _ _ => ⟨rfl, rfl⟩⟩,
    { analyses with function_eq := rfl }, rfl⟩

theorem setScopes {scopes other : ScopeChain}
    (frames : correspondence.Frames scopes.frames other.frames) (depth_eq : scopes.depth = later) :
    Mirrors correspondence depth later (setScopes scopes) (Analysis.setScopes other) before
      fun after _ _ => after.ast = before.ast :=
  fun _ analyses => ⟨⟨le_rfl, le_rfl, fun _ _ => ⟨rfl, rfl⟩⟩,
    { analyses with frames, depth_eq }, rfl⟩

end Mirrors

end Analysis

end Minilang
