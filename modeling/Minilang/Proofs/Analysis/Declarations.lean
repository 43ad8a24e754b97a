import Minilang.Analysis.Declaration
import Minilang.Proofs.Analysis.Statements

/-!
# Analysis of declarations keeps programs typed

One law per step on scopes and declarations: which scopes are open behind it, which declaration was added
or completed, and where it is refused.
-/

namespace Minilang.Analysis

/-- The state with one more declaration. -/
def withDecl (analysis : Analysis) (decl : Decl) : Analysis :=
  { analysis with ast := (analysis.ast.addDecl decl).2 }

/-- The state in which a declaration introduces something else. -/
def withKind (analysis : Analysis) (id : DeclId) (kind : DeclKind) : Analysis :=
  { analysis with ast := analysis.ast.setDeclKind id kind }

/-- The state with other scopes. -/
def withScopes (analysis : Analysis) (scopes : ScopeChain) : Analysis := { analysis with scopes }

/-- The state in which another function is being defined. -/
def withFunction (analysis : Analysis) (function : Option DeclId) : Analysis :=
  { analysis with function }

/-- A failure behind which the program has grown, and which is a fault of the program if the step was
taken where it belongs. -/
def Rejects (fitting : Prop) (before : Analysis) (error : Diagnostic) (after : Analysis) : Prop :=
  Grows before after ∧ (fitting → error.isFault = true)

theorem grows_withDecl (analysis : Analysis) {decl : Decl}
    (uninitialized : decl.kind.initializer? = none) : Grows analysis (analysis.withDecl decl) :=
  ⟨.addDecl _ _, fun sound => sound.addDecl uninitialized⟩

theorem grows_withScopes (analysis : Analysis) (scopes : ScopeChain) :
    Grows analysis (analysis.withScopes scopes) := .of_ast_eq rfl

theorem grows_withFunction (analysis : Analysis) (function : Option DeclId) :
    Grows analysis (analysis.withFunction function) := .of_ast_eq rfl

section Scopes

variable {before : Analysis}

theorem enterGlobalScope_ensures :
    Ensures enterGlobalScope before
      (fun _ after => before.scopes.depth = 0 ∧
        after = before.withScopes (before.scopes.push .global))
      (Rejects (before.scopes.depth = 0) before) := by
  rw [enterGlobalScope, ensures_bind, ensures_get]
  by_cases outermost : before.scopes.depth = 0
  · rw [if_neg (not_not.2 outermost), ensures_setScopes]
    exact ⟨outermost, rfl⟩
  · rw [if_pos outermost, ensures_bind]
    exact ⟨.refl _, fun fits => absurd fits outermost⟩

theorem enterParameterScope_ensures {onError : Diagnostic → Analysis → Prop} :
    Ensures enterParameterScope before
      (fun _ after => after = before.withScopes (before.scopes.push .parameter)) onError := by
  rw [enterParameterScope, ensures_bind, ensures_get, ensures_setScopes]
  rfl

theorem enterBlockScope_ensures {onError : Diagnostic → Analysis → Prop} :
    Ensures enterBlockScope before
      (fun _ after => after = before.withScopes (before.scopes.push .block)) onError := by
  rw [enterBlockScope, ensures_bind, ensures_get, ensures_setScopes]
  rfl

theorem leaveScope_ensures :
    Ensures leaveScope before
      (fun _ after => ∃ frame outer, before.scopes.pop? = some (frame, outer) ∧
        after = before.withScopes outer)
      (Rejects (∃ frame outer, before.scopes.pop? = some (frame, outer)) before) := by
  rw [leaveScope, ensures_bind, ensures_get]
  split
  · next frame outer found => exact ⟨frame, outer, found, rfl⟩
  · next missing =>
    refine ⟨.refl _, fun ⟨frame, outer, found⟩ => ?_⟩
    cases missing.symm.trans found

/-- A declaration is bound under its name, and never refused. -/
theorem declare_ensures (id : DeclId) :
    Ensures (declare id) before
      (fun _ after => ∃ scopes,
        before.scopes.declare (before.ast.decl id).name id = .ok scopes ∧
        after = before.withScopes scopes)
      (fun error after => after = before ∧ error.isFault = true) := by
  rw [declare, ensures_bind, ensures_decl, ensures_bind, ensures_get]
  split
  · next scopes declared => exact ⟨scopes, declared, rfl⟩
  · exact ⟨rfl, rfl⟩

/-- A declaration that was just added is bound under its name. -/
theorem declareAdded_ensures (decl : Decl) :
    Ensures (declare ⟨before.ast.decls.size⟩) (before.withDecl decl)
      (fun _ after => ∃ scopes,
        before.scopes.declare decl.name ⟨before.ast.decls.size⟩ = .ok scopes ∧
        after = (before.withDecl decl).withScopes scopes)
      (fun error after => after = before.withDecl decl ∧ error.isFault = true) := by
  have added : (before.withDecl decl).ast.decl ⟨before.ast.decls.size⟩ = decl :=
    Ast.decl_addDecl_self before.ast decl
  refine (declare_ensures _).mono ?_ fun _ _ fails => fails
  rintro _ after ⟨scopes, declared, after_eq⟩
  rw [added] at declared
  exact ⟨scopes, declared, after_eq⟩

/-- Declarations are bound one after another. -/
theorem declareAll_ensures (ids : List DeclId) :
    Ensures (ids.forM declare) before
      (fun _ after => ∃ scopes, after = before.withScopes scopes)
      (fun error after => (∃ scopes, after = before.withScopes scopes) ∧
        error.isFault = true) := by
  induction ids generalizing before with
  | nil => exact ⟨before.scopes, rfl⟩
  | cons id ids induction =>
      rw [show (id :: ids).forM declare = (do declare id; ids.forM declare) from rfl, ensures_bind]
      refine (declare_ensures id).mono ?_ ?_
      · rintro _ middle ⟨scopes, -, rfl⟩
        refine induction.mono ?_ ?_
        · rintro _ after ⟨last, rfl⟩
          exact ⟨last, rfl⟩
        · rintro error after ⟨⟨last, rfl⟩, external⟩
          exact ⟨⟨last, rfl⟩, external⟩
      · rintro error after ⟨rfl, external⟩
        exact ⟨⟨after.scopes, rfl⟩, external⟩

end Scopes

section Declarations

variable {first : Nat} {before : Analysis}

/-- A new declaration is bound under the name that its token spells. -/
theorem declareNew_ensures (token : Token) {kind : DeclKind}
    (uninitialized : kind.initializer? = none) :
    Ensures (declareNew token kind) before
      (fun id after => ∃ name scopes, token.kind = .identifier name ∧
        id = ⟨before.ast.decls.size⟩ ∧ before.scopes.declare name id = .ok scopes ∧
        after = (before.withDecl ⟨name, token.location, kind⟩).withScopes scopes)
      (Rejects (∃ name, token.kind = .identifier name) before) := by
  rw [declareNew, ensures_bind]
  refine (nameOf_ensures token).mono ?_ ?_
  · rintro name before ⟨spelled, rfl⟩
    have grows : Grows before (before.withDecl ⟨name, token.location, kind⟩) :=
      grows_withDecl before uninitialized
    rw [ensures_bind, ensures_addDecl, ensures_bind]
    refine (declareAdded_ensures ⟨name, token.location, kind⟩).mono ?_ ?_
    · rintro _ after ⟨scopes, declared, rfl⟩
      exact ⟨name, scopes, spelled, rfl, declared, rfl⟩
    · rintro error _ ⟨rfl, external⟩
      exact ⟨grows, fun _ => external⟩
  · rintro error _ ⟨unspelled, rfl, rfl⟩
    exact ⟨.refl _, fun ⟨name, spelled⟩ => absurd spelled (unspelled name)⟩

theorem declareObject_ensures (kind : ObjectKind) (token : Token) (type : Ty) :
    Ensures (declareObject kind token type) before
      (fun id after => ∃ name scopes, token.kind = .identifier name ∧
        id = ⟨before.ast.decls.size⟩ ∧ before.scopes.declare name id = .ok scopes ∧
        after = (before.withDecl ⟨name, token.location, .object kind type none⟩).withScopes
          scopes)
      (Rejects (∃ name, token.kind = .identifier name) before) :=
  declareNew_ensures token rfl

theorem declareParameter_ensures (token : Token) (type : Ty) :
    Ensures (declareParameter token type) before
      (fun id after => ∃ name scopes, token.kind = .identifier name ∧
        id = ⟨before.ast.decls.size⟩ ∧ before.scopes.declare name id = .ok scopes ∧
        after = (before.withDecl ⟨name, token.location, .parameter type⟩).withScopes scopes)
      (Rejects (∃ name, token.kind = .identifier name) before) :=
  declareNew_ensures token rfl

/-- The types of declarations that have one. -/
def typesOf (ast : Ast) (ids : List DeclId) : List Ty :=
  ids.filterMap fun id => (ast.kindOf id).type?

/-- A function is declared outside of every other function, without a body. -/
theorem declareFunction_ensures (token : Token) (parameters : List DeclId) (result : Ty) :
    Ensures (declareFunction token parameters result) before
      (fun id after => ∃ name scopes, token.kind = .identifier name ∧ before.function = none ∧
        id = ⟨before.ast.decls.size⟩ ∧ before.scopes.declare name id = .ok scopes ∧
        after = ((before.withDecl ⟨name, token.location, .function (.function result
          (typesOf before.ast parameters)) parameters none⟩).withScopes scopes).withFunction id)
      (Rejects (∃ name, token.kind = .identifier name) before) := by
  rw [declareFunction, ensures_bind]
  refine (nameOf_ensures token).mono ?_ ?_
  · rintro name before ⟨spelled, rfl⟩
    rw [ensures_bind, ensures_get]
    by_cases nested : before.function.isSome = true
    · rw [if_pos nested, ensures_bind]
      exact ⟨.refl _, fun _ => rfl⟩
    rw [if_neg nested, ensures_bind, ensures_addDecl, ensures_bind]
    have outside : before.function = none := Option.not_isSome_iff_eq_none.1 nested
    refine (declareAdded_ensures ⟨name, token.location, .function (.function result
      (typesOf before.ast parameters)) parameters none⟩).mono ?_ ?_
    · rintro _ after ⟨scopes, declared, rfl⟩
      exact ⟨name, scopes, spelled, outside, rfl, declared, rfl⟩
    · rintro error _ ⟨rfl, external⟩
      exact ⟨grows_withDecl before rfl, fun _ => external⟩
  · rintro error _ ⟨unspelled, rfl, rfl⟩
    exact ⟨.refl _, fun ⟨name, spelled⟩ => absurd spelled (unspelled name)⟩

/-- An object gets a value of its type as its initializer, once. -/
theorem defineObject_ensures (id : DeclId) {initializer : ExprId}
    (held : before.Holds first initializer) :
    Ensures (defineObject id initializer) before
      (fun result after => ∃ value middle kind type, Gives first before value middle ∧
        before.ast.kindOf id = .object kind type none ∧ middle.ast.typeOf value = type ∧
        (kind ≠ .var → before.scopes.currentKind? = some .global →
          middle.ast.isConstant value = true) ∧
        result = id ∧ after = middle.withKind id (.object kind type (some value)))
      (FailsFor (∃ kind type, before.ast.kindOf id = .object kind type none) first before) := by
  rw [defineObject, ensures_bind]
  refine (load_ensures held).mono ?_ fun _ _ fails => fails.failsFor
  rintro value middle ⟨gives, -⟩
  have kind_eq : (middle.ast.decl id).kind = before.ast.kindOf id := by
    rw [Ast.decl, gives.1.decls_eq, Ast.kindOf, Ast.decl]
  rw [ensures_bind, ensures_decl, kind_eq]
  cases introduced : before.ast.kindOf id with
  | object kind type earlier =>
      dsimp only [DeclKind.type?]
      rw [ensures_bind]
      refine (requireSame_ensures type value).mono ?_
        fun _ _ fails => (fails.trans gives.1).failsFor
      rintro _ middle ⟨rfl, same⟩
      rw [ensures_bind, ensures_get]
      by_cases computed : (DeclKind.object kind type earlier).isConstant = true ∧
        middle.scopes.currentKind? = some .global ∧ middle.ast.isConstant value = false
      · rw [if_pos computed, ensures_bind, ensures_expr, ensures_bind]
        exact ⟨gives.1, fun _ => rfl⟩
      rw [if_neg computed]
      cases earlier with
      | none =>
          refine ⟨value, middle, kind, type, gives, rfl, same, ?_, rfl, rfl⟩
          intro isConstant global
          by_contra notConstant
          refine computed ⟨?_, ?_, Bool.eq_false_iff.2 notConstant⟩
          · cases kind <;> simp_all [DeclKind.isConstant]
          · rw [gives.1.scopes_eq, global]
      | some earlier =>
          refine ⟨gives.1, ?_⟩
          rintro ⟨_, _, undefined⟩
          cases undefined
  | parameter type =>
      dsimp only [DeclKind.type?]
      rw [ensures_bind]
      refine (requireSame_ensures type value).mono ?_
        fun _ _ fails => (fails.trans gives.1).failsFor
      rintro _ middle ⟨rfl, -⟩
      rw [ensures_bind, ensures_get, if_neg (by simp [DeclKind.isConstant])]
      refine ⟨gives.1, ?_⟩
      rintro ⟨_, _, object⟩
      cases object
  | function type parameters body =>
      dsimp only [DeclKind.type?]
      rw [ensures_bind]
      refine (requireSame_ensures type value).mono ?_
        fun _ _ fails => (fails.trans gives.1).failsFor
      rintro _ middle ⟨rfl, -⟩
      rw [ensures_bind, ensures_get, if_neg (by simp [DeclKind.isConstant])]
      refine ⟨gives.1, ?_⟩
      rintro ⟨_, _, object⟩
      cases object
  | program declarations =>
      refine ⟨gives.1, ?_⟩
      rintro ⟨_, _, object⟩
      cases object

/-- The function being defined gets its body, once. -/
theorem defineFunction_ensures (id : DeclId) (body : StmtId) :
    Ensures (defineFunction id body) before
      (fun result after => ∃ type parameters, before.function = some id ∧
        before.ast.kindOf id = .function type parameters none ∧ result = id ∧
        after = (before.withKind id (.function type parameters (some body))).withFunction none)
      (Rejects (before.function = some id ∧
        ∃ type parameters, before.ast.kindOf id = .function type parameters none) before) := by
  rw [defineFunction, ensures_bind, ensures_get]
  by_cases current : before.function = some id
  · rw [if_neg (not_not.2 current), ensures_bind, ensures_decl, ← Ast.kindOf]
    split
    · next type parameters introduced =>
      exact ⟨type, parameters, current, introduced, rfl, rfl⟩
    · next type parameters earlier introduced =>
      refine ⟨.refl _, ?_⟩
      rintro ⟨-, other, others, undefined⟩
      simp [introduced] at undefined
    · next notOpen notDefined =>
      refine ⟨.refl _, ?_⟩
      rintro ⟨-, type, parameters, introduced⟩
      exact absurd introduced (notOpen type parameters)
  · rw [if_pos current, ensures_bind]
    exact ⟨.refl _, fun fits => absurd fits.1 current⟩

theorem addProgram_ensures (name : String) (declarations : List DeclId)
    {onError : Diagnostic → Analysis → Prop} :
    Ensures (addProgram name declarations) before
      (fun id after => id = ⟨before.ast.decls.size⟩ ∧
        after = before.withDecl ⟨name, .unknown, .program declarations⟩) onError := by
  rw [addProgram, ensures_addDecl]
  exact ⟨rfl, rfl⟩

end Declarations

end Minilang.Analysis
