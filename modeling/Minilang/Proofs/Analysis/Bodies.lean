import Minilang.Proofs.Analysis.Declarations
import Minilang.Proofs.Analysis.Effects

/-!
# Analysis inside functions

While a function is being defined, names lead to declarations at the top of the program, to parameters of
the function, or to objects that have been declared since the function was.
-/

namespace Minilang

namespace ScopeChain

/-- A declaration changes the innermost frame only. -/
theorem tail_of_declare {chain after : ScopeChain} {name : String} {declaration : DeclId}
    (declared : chain.declare name declaration = .ok after) :
    after.frames.tail = chain.frames.tail ∧ after.frames ≠ [] := by
  obtain ⟨frames⟩ := chain
  cases frames with
  | nil => simp [declare] at declared
  | cons frame outer =>
      cases bound : frame.get? name with
      | some existing => simp [declare, bound] at declared
      | none =>
          simp only [declare, bound, Except.ok.injEq] at declared
          subst declared
          exact ⟨rfl, List.cons_ne_nil _ _⟩

end ScopeChain

/-- A function with what its body may refer to. -/
structure FunctionScope where
  /-- The declarations at the top of the program that may be named. -/
  globals : List DeclId
  /-- The parameters. -/
  parameters : List DeclId
  /-- The function itself, which was declared behind its parameters. -/
  function : DeclId

namespace FunctionScope

/-- What may be named in a function when a number of declarations have been made. -/
def Visible (scope : FunctionScope) (count : Nat) (declaration : DeclId) : Prop :=
  declaration ∈ scope.globals ∨ declaration ∈ scope.parameters ∨
    scope.function.index < declaration.index ∧ declaration.index < count

theorem Visible.mono {scope : FunctionScope} {count more : Nat} {declaration : DeclId}
    (visible : scope.Visible count declaration) (count_le : count ≤ more) :
    scope.Visible more declaration := by
  obtain atTop | isParameter | ⟨behind, bound⟩ := visible
  · exact .inl atTop
  · exact .inr (.inl isParameter)
  · exact .inr (.inr ⟨behind, bound.trans_le count_le⟩)

end FunctionScope

namespace Analysis

/-- A state while a function is being defined. -/
structure InBody (scope : FunctionScope) (analysis : Analysis) : Prop where
  /-- The program is sound. -/
  sound : analysis.ast.Sound
  /-- The function is the one being defined. -/
  inside : analysis.function = some scope.function
  /-- The function has its type and its parameters, but no body. -/
  opened : ∃ result types, analysis.ast.kindOf scope.function =
    .function (.function result types) scope.parameters none
  /-- Parameters have types. -/
  parameter_typed : ∀ parameter ∈ scope.parameters, ∃ type,
    (analysis.ast.kindOf parameter).type? = some type
  /-- A scope is open. -/
  frames_ne : analysis.scopes.frames ≠ []
  /-- Names lead to what is visible. -/
  visible : ∀ name declaration, analysis.scopes.lookup name = some declaration →
    scope.Visible analysis.ast.decls.size declaration
  /-- Names lead to what has a type. -/
  typed : analysis.NamesTyped

/-- What is kept from one state to a later one in the same scope. -/
structure Proceeds (before after : Analysis) : Prop where
  /-- Nodes are kept. -/
  extends' : before.ast.Extends after.ast
  /-- Declarations are left alone. -/
  kind_eq (id : DeclId) : id.index < before.ast.decls.size →
    after.ast.kindOf id = before.ast.kindOf id
  /-- The outer scopes are left alone. -/
  outer_eq : after.scopes.frames.tail = before.scopes.frames.tail

namespace Proceeds

variable {before middle after : Analysis}

theorem refl (analysis : Analysis) : Proceeds analysis analysis := ⟨.refl _, fun _ _ => rfl, rfl⟩

theorem trans (first : Proceeds before middle) (second : Proceeds middle after) :
    Proceeds before after where
  extends' := first.extends'.trans second.extends'
  kind_eq id earlier :=
    (second.kind_eq id (earlier.trans_le first.extends'.decls_le)).trans (first.kind_eq id earlier)
  outer_eq := second.outer_eq.trans first.outer_eq

theorem of_adds {first : Nat} (adds : Adds first before after) : Proceeds before after where
  extends' := adds.extends'
  kind_eq id _ := by rw [Ast.kindOf, Ast.decl, adds.decls_eq, Ast.kindOf, Ast.decl]
  outer_eq := by rw [adds.scopes_eq]

theorem of_puts {stmt : Stmt} {id : StmtId} (puts : Puts before stmt id after) :
    Proceeds before after := by
  obtain ⟨rfl, rfl⟩ := puts
  exact ⟨.addStmt _ _, fun _ _ => rfl, rfl⟩

end Proceeds

namespace InBody

variable {scope : FunctionScope} {before middle after : Analysis}

theorem function_lt (inBody : InBody scope before) :
    scope.function.index < before.ast.decls.size := by
  obtain ⟨result, types, opened⟩ := inBody.opened
  exact Ast.index_lt_of_type? (by rw [opened, DeclKind.type?])

theorem inFunction (inBody : InBody scope before) : before.InFunction := by
  obtain ⟨result, types, opened⟩ := inBody.opened
  exact ⟨scope.function, result, types, inBody.inside, by rw [opened, DeclKind.type?]⟩

/-- A later state is inside the same function if its scopes are in order. -/
theorem of_extends (inBody : InBody scope before) (extends' : before.ast.Extends after.ast)
    (kind_eq : ∀ id, id.index < before.ast.decls.size →
      after.ast.kindOf id = before.ast.kindOf id)
    (function_eq : after.function = before.function) (sound : after.ast.Sound)
    (frames_ne : after.scopes.frames ≠ [])
    (visible : ∀ name declaration, after.scopes.lookup name = some declaration →
      scope.Visible after.ast.decls.size declaration)
    (typed : after.NamesTyped) : InBody scope after where
  sound := sound
  inside := function_eq.trans inBody.inside
  opened := by
    rw [kind_eq _ inBody.function_lt]
    exact inBody.opened
  parameter_typed parameter member := by
    obtain ⟨type, declared⟩ := inBody.parameter_typed parameter member
    exact ⟨type, extends'.type?_eq declared⟩
  frames_ne := frames_ne
  visible := visible
  typed := typed

/-- A later state with the scopes of an earlier one is inside the same function. -/
theorem of_scopes_eq (inBody : InBody scope before) (extends' : before.ast.Extends after.ast)
    (kind_eq : ∀ id, id.index < before.ast.decls.size →
      after.ast.kindOf id = before.ast.kindOf id)
    (function_eq : after.function = before.function) (sound : after.ast.Sound)
    (scopes_eq : after.scopes = before.scopes) : InBody scope after := by
  refine inBody.of_extends extends' kind_eq function_eq sound ?_ ?_ ?_
  · rw [scopes_eq]
    exact inBody.frames_ne
  · intro name declaration found
    rw [scopes_eq] at found
    exact (inBody.visible name declaration found).mono extends'.decls_le
  · intro name declaration found
    rw [scopes_eq] at found
    obtain ⟨type, declared⟩ := inBody.typed name declaration found
    exact ⟨type, extends'.type?_eq declared⟩

theorem adds {first : Nat} (inBody : InBody scope before) (adds : Adds first before after) :
    InBody scope after :=
  inBody.of_scopes_eq adds.extends' (Proceeds.of_adds adds).kind_eq adds.function_eq
    (adds.sound inBody.sound) adds.scopes_eq

/-- A typed statement of older ones is added inside the same function. -/
theorem puts {stmt : Stmt} {id : StmtId} (inBody : InBody scope before)
    (puts : Puts before stmt id after) (typed : before.ast.StmtTyped stmt)
    (child_lt : ∀ child ∈ stmt.children, child.index < before.ast.stmts.size) :
    InBody scope after := by
  have grows := puts.grows (fun _ => typed) child_lt
  have proceeds := Proceeds.of_puts puts
  obtain ⟨rfl, rfl⟩ := puts
  exact inBody.of_scopes_eq proceeds.extends' proceeds.kind_eq rfl (grows.sound inBody.sound) rfl

/-- A block opens a scope inside the same function. -/
theorem push (inBody : InBody scope before) (kind : ScopeKind) :
    InBody scope (before.withScopes (before.scopes.push kind)) := by
  refine inBody.of_extends (.refl _) (fun _ _ => rfl) rfl inBody.sound (List.cons_ne_nil _ _) ?_ ?_
  · intro name declaration found
    rw [withScopes, ScopeChain.lookup_push] at found
    exact inBody.visible name declaration found
  · intro name declaration found
    rw [withScopes, ScopeChain.lookup_push] at found
    exact inBody.typed name declaration found

/-- A visible declaration may be bound inside the same function. -/
theorem declare {name : String} {declaration : DeclId} {scopes : ScopeChain}
    (inBody : InBody scope before)
    (declared : before.scopes.declare name declaration = .ok scopes)
    (visible : scope.Visible before.ast.decls.size declaration)
    (typed : ∃ type, (before.ast.kindOf declaration).type? = some type) :
    InBody scope (before.withScopes scopes) := by
  refine inBody.of_extends (.refl _) (fun _ _ => rfl) rfl inBody.sound
    (ScopeChain.tail_of_declare declared).2 ?_ ?_
  · intro other otherDeclaration found
    rw [withScopes, ScopeChain.lookup_of_declare declared] at found
    split at found
    · cases found
      exact visible
    · exact inBody.visible other otherDeclaration found
  · intro other otherDeclaration found
    rw [withScopes, ScopeChain.lookup_of_declare declared] at found
    split at found
    · cases found
      exact typed
    · exact inBody.typed other otherDeclaration found

end InBody

section Steps

variable {scope : FunctionScope} {before : Analysis}

/-- Binding visible declarations leaves everything but the innermost scope alone. -/
theorem declareVisible_ensures {ids : List DeclId} (inBody : InBody scope before)
    (visible : ∀ id ∈ ids, scope.Visible before.ast.decls.size id)
    (typed : ∀ id ∈ ids, ∃ type, (before.ast.kindOf id).type? = some type) :
    Ensures (ids.forM declare) before
      (fun _ after => InBody scope after ∧ Proceeds before after ∧ after.ast = before.ast)
      (fun error _ => error.isFault = true) := by
  induction ids generalizing before with
  | nil => exact ⟨inBody, .refl _, rfl⟩
  | cons id ids induction =>
      rw [show (id :: ids).forM declare = (do declare id; ids.forM declare) from rfl, ensures_bind]
      refine (declare_ensures id).mono ?_ fun _ _ fails => fails.2
      rintro _ middle ⟨scopes, declared, rfl⟩
      have middle_inBody := inBody.declare declared (visible id (by simp)) (typed id (by simp))
      refine (induction middle_inBody (fun other member => visible other (by simp [member]))
        fun other member => typed other (by simp [member])).mono ?_ fun _ _ external => external
      rintro _ after ⟨after_inBody, proceeds, same⟩
      have first : Proceeds before (before.withScopes scopes) :=
        ⟨.refl _, fun _ _ => rfl, (ScopeChain.tail_of_declare declared).1⟩
      exact ⟨after_inBody, first.trans proceeds, same⟩

/-- Starting a block binds nothing but parameters. -/
theorem startBlock_ensures (inBody : InBody scope before) :
    Ensures startBlock before
      (fun _ after => InBody scope after ∧ Proceeds before after ∧ after.ast = before.ast)
      (fun error _ => error.isFault = true) := by
  obtain ⟨result, types, opened⟩ := inBody.opened
  rw [startBlock, ensures_bind, ensures_get]
  by_cases outermost : before.scopes.parentKind? = some .global
  · rw [if_neg (not_not.2 outermost), inBody.inside]
    dsimp only
    rw [← Ast.kindOf, opened, DeclKind.parameters]
    exact declareVisible_ensures inBody (fun id member => .inr (.inl member))
      inBody.parameter_typed
  · rw [if_pos outermost]
    exact ⟨inBody, .refl _, rfl⟩

end Steps

/-- An object was declared, and got an initializer that may name whatever is in scope. A constant is not in
scope for its own initializer. -/
structure DeclaresObject (kind : ObjectKind) (before : Analysis) (id : DeclId)
    (after : Analysis) : Prop where
  /-- The object is the next declaration. -/
  id_eq : id = ⟨before.ast.decls.size⟩
  /-- No other declaration is added. -/
  size_eq : after.ast.decls.size = before.ast.decls.size + 1
  /-- Nodes are kept. -/
  grows : Grows before after
  /-- Other declarations are left alone. -/
  kind_eq (other : DeclId) : other.index < before.ast.decls.size →
    after.ast.kindOf other = before.ast.kindOf other
  /-- The name of the object is bound. -/
  bound : before.scopes.declare (after.ast.decl id).name id = .ok after.scopes
  /-- The same function is being defined. -/
  function_eq : after.function = before.function
  /-- The initializer is scoped. -/
  initialized : ∃ type value, after.ast.kindOf id = .object kind type (some value) ∧
    after.ast.Names (fun declaration => (∃ name, after.scopes.lookup name = some declaration) ∧
      (kind ≠ .var → declaration ≠ id)) value
  /-- The initializer of a constant at the top is pure. -/
  pure : before.ast.Sound → kind ≠ .var → after.scopes.currentKind? = some .global →
    ∀ value, (after.ast.kindOf id).initializer? = some value → after.ast.Pure value

section Objects

variable {before middle after : Analysis} {kind : ObjectKind} {id : DeclId}

/-- An object is declared, expressions are added, and one of them becomes the initializer. -/
theorem declaresObject_of_adds {name : String} {location : Location} {type : Ty}
    {scopes : ScopeChain} {declared : Analysis} {value : ExprId}
    (bound : before.scopes.declare name ⟨before.ast.decls.size⟩ = .ok scopes)
    (declared_eq : declared =
      (before.withDecl ⟨name, location, .object kind type none⟩).withScopes scopes)
    (gives : Gives declared.ast.exprs.size declared value middle)
    (value_type : middle.ast.typeOf value = type)
    (constant : kind ≠ .var → middle.scopes.currentKind? = some .global →
      middle.ast.isConstant value = true) :
    DeclaresObject kind before ⟨before.ast.decls.size⟩
      (middle.withKind ⟨before.ast.decls.size⟩ (.object kind type (some value))) := by
  subst declared_eq
  set id : DeclId := ⟨before.ast.decls.size⟩
  obtain ⟨adds, held⟩ := gives
  have decls_eq : middle.ast.decls =
      before.ast.decls.push ⟨name, location, .object kind type none⟩ := adds.decls_eq
  have decl_eq : middle.ast.decl id = ⟨name, location, .object kind type none⟩ := by
    simp [Ast.decl, decls_eq, id]
  have declared_lt : id.index < middle.ast.decls.size := by simp [decls_eq, id]
  have completes : (middle.ast.kindOf id).Completes (.object kind type (some value)) := by
    rw [Ast.kindOf, decl_eq]
    exact .initializer kind type value
  have kindOf_eq (other : DeclId) :
      (middle.withKind id (.object kind type (some value))).ast.decl other =
        if other = id then ⟨name, location, .object kind type (some value)⟩
        else middle.ast.decl other := by
    rw [withKind, Ast.decl_setDeclKind _ _ _ _ declared_lt, decl_eq]
  have added : Grows before middle :=
    ((grows_withDecl before rfl).trans (grows_withScopes _ scopes)).trans adds.grows
  have completed : Grows middle (middle.withKind id (.object kind type (some value))) := by
    refine ⟨.setDeclKind declared_lt completes, fun sound => ?_⟩
    refine sound.setDeclKind declared_lt completes fun other found => ?_
    cases found
    exact ⟨held.2, congrArg some value_type.symm⟩
  refine ⟨rfl, by simp [withKind, Ast.setDeclKind, decls_eq], added.trans completed, ?_, ?_,
    adds.function_eq, ⟨type, value, ?_, ?_⟩, ?_⟩
  · intro other earlier
    have different : other ≠ id := fun same => by simp [same, id] at earlier
    rw [Ast.kindOf, kindOf_eq, if_neg different, Ast.decl, decls_eq, Ast.kindOf, Ast.decl,
      Array.getElem?_push_lt earlier, Array.getElem?_eq_getElem earlier]
  · rw [kindOf_eq, if_pos rfl]
    exact adds.scopes_eq ▸ bound
  · rw [Ast.kindOf, kindOf_eq, if_pos rfl]
  · refine ((adds.names held).extends' completed.extends').mono ?_
    rintro declaration ⟨inScope, initialized⟩
    refine ⟨?_, ?_⟩
    · obtain ⟨other, found⟩ := inScope
      exact ⟨other, by rw [withKind, adds.scopes_eq]; exact found⟩
    · rintro constant rfl
      have kind_eq : (((before.withDecl ⟨name, location, .object kind type none⟩).withScopes
          scopes).ast.kindOf id) = .object kind type none := by
        rw [Ast.kindOf]
        exact congrArg Decl.kind (Ast.decl_addDecl_self before.ast _)
      rw [kind_eq] at initialized
      obtain ⟨initializer, found⟩ := initialized (by
        cases kind <;> simp_all [DeclKind.isConstant])
      cases found
  · intro sound isConstant atTop initializer found
    rw [Ast.kindOf, kindOf_eq, if_pos rfl] at found
    cases found
    exact ((Ast.isConstant_iff (added.sound sound) held.2).1 (constant isConstant atTop)).extends'
      completed.extends'

/-- Declaring an object stays inside the same function. -/
theorem DeclaresObject.inBody {scope : FunctionScope}
    (declares : DeclaresObject kind before id after) (inBody : InBody scope before) :
    InBody scope after := by
  obtain ⟨type, value, kind_eq, -⟩ := declares.initialized
  refine inBody.of_extends declares.grows.extends' declares.kind_eq declares.function_eq
    (declares.grows.sound inBody.sound) (ScopeChain.tail_of_declare declares.bound).2 ?_ ?_
  · intro name declaration found
    rw [ScopeChain.lookup_of_declare declares.bound] at found
    split at found
    · cases found
      rw [declares.id_eq, declares.size_eq]
      exact .inr (.inr ⟨inBody.function_lt, Nat.lt_succ_self _⟩)
    · exact (inBody.visible name declaration found).mono declares.grows.extends'.decls_le
  · intro name declaration found
    rw [ScopeChain.lookup_of_declare declares.bound] at found
    split at found
    · cases found
      exact ⟨type, by rw [kind_eq, DeclKind.type?]⟩
    · obtain ⟨other, declared⟩ := inBody.typed name declaration found
      exact ⟨other, declares.grows.extends'.type?_eq declared⟩

theorem DeclaresObject.proceeds (declares : DeclaresObject kind before id after) :
    Proceeds before after :=
  ⟨declares.grows.extends', declares.kind_eq, (ScopeChain.tail_of_declare declares.bound).1⟩

/-- Inside a function, an initializer names what is visible. -/
theorem DeclaresObject.names {scope : FunctionScope}
    (declares : DeclaresObject kind before id after) (inBody : InBody scope before) :
    ∃ type value, after.ast.kindOf id = .object kind type (some value) ∧
      after.ast.Names (scope.Visible
        (if kind = .var then before.ast.decls.size + 1 else before.ast.decls.size)) value := by
  obtain ⟨type, value, kind_eq, names⟩ := declares.initialized
  refine ⟨type, value, kind_eq, names.mono ?_⟩
  rintro declaration ⟨⟨name, found⟩, other⟩
  rw [ScopeChain.lookup_of_declare declares.bound] at found
  split at found
  · cases found
    by_cases variableKind : kind = .var
    · rw [if_pos variableKind, declares.id_eq]
      exact .inr (.inr ⟨inBody.function_lt, Nat.lt_succ_self _⟩)
    · exact absurd rfl (other variableKind)
  · refine (inBody.visible name declaration found).mono ?_
    split
    · exact Nat.le_succ _
    · exact le_rfl

end Objects

/-- Statements were added one after another inside a function, and with them the declarations that they
make. -/
structure Advances (scope : FunctionScope) (before : Analysis) (ids : List StmtId)
    (after : Analysis) : Prop where
  /-- The function is still being defined. -/
  inBody : InBody scope after
  /-- Outer scopes and older declarations are left alone. -/
  proceeds : Proceeds before after
  /-- The statements are scoped. -/
  inScope : after.ast.Scoped scope.Visible before.ast.decls.size ids after.ast.decls.size
  /-- The statements return values of the result type. -/
  returns : ∀ id ∈ ids, after.ast.Returns scope.function id

section Statements

variable {scope : FunctionScope} {before middle after : Analysis} {ids more : List StmtId}

theorem Advances.nil (inBody : InBody scope before) : Advances scope before [] before :=
  ⟨inBody, .refl _, .nil _, by simp⟩

theorem Advances.append (first : Advances scope before ids middle)
    (second : Advances scope middle more after) : Advances scope before (ids ++ more) after :=
  ⟨second.inBody, first.proceeds.trans second.proceeds,
    (first.inScope.extends' second.proceeds.extends').append second.inScope,
    List.forall_mem_append.2 ⟨fun id member => (first.returns id member).extends'
      second.proceeds.extends', second.returns⟩⟩

/-- Added expressions name what is visible. -/
theorem InBody.names (inBody : InBody scope before) {id : ExprId}
    (gives : Gives before.ast.exprs.size before id after) :
    after.ast.Names (scope.Visible before.ast.decls.size) id :=
  (gives.1.names gives.2).mono fun declaration nameable =>
    nameable.1.elim fun name found => inBody.visible name declaration found

/-- A statement is added behind what belongs to it. -/
theorem advances_of_puts {stmt : Stmt} {id : StmtId} (inBody : InBody scope middle)
    (proceeds : Proceeds before middle) (puts : Puts middle stmt id after)
    (typed : middle.ast.StmtTyped stmt)
    (returned : ∀ value, stmt = .returnValue value → ∃ parameters,
      (middle.ast.kindOf scope.function).type? =
        some (.function (middle.ast.typeOf value) parameters))
    (children : ∀ child ∈ stmt.children, middle.ast.Returns scope.function child)
    (inScope : after.ast.StmtIs id stmt →
      after.ast.Scoped scope.Visible before.ast.decls.size [id] middle.ast.decls.size) :
    Advances scope before [id] after := by
  have form : after.ast.StmtIs id stmt := ⟨puts.index_lt, puts.stmt_eq⟩
  have size_eq : after.ast.decls.size = middle.ast.decls.size := by rw [puts.2]; rfl
  have extends' := (Proceeds.of_puts puts).extends'
  refine ⟨inBody.puts puts typed fun child member => (children child member).index_lt,
    proceeds.trans (.of_puts puts), ?_, List.forall_mem_singleton.2 (.stmt form.1 ?_ ?_)⟩
  · rw [size_eq]
    exact inScope form
  · intro value returns
    rw [form.2] at returns
    obtain ⟨parameters, declared⟩ := returned value returns
    have value_lt := typed.expression_lt value (by simp [returns, Stmt.expressions])
    refine ⟨value_lt.trans_le extends'.exprs_le, parameters, ?_⟩
    rw [extends'.typeOf_eq value_lt]
    exact extends'.type?_eq declared
  · rw [form.2]
    exact fun child member => (children child member).extends' extends'

/-- A statement under a guard is added behind the statements it guards. -/
theorem advances_of_putsGuarded {form : ExprId → Stmt} {guard : ExprId} {id : StmtId}
    (inBody : InBody scope middle) (proceeds : Proceeds before middle)
    (puts : PutsGuarded 0 middle guard form id after)
    (guarded : ∀ value, (form value).expressions = [value])
    (notReturn : ∀ value returned, form value ≠ .returnValue returned)
    (undeclared : ∀ value, (form value).declared? = none)
    (children : ∀ value, ∀ child ∈ (form value).children,
      middle.ast.Returns scope.function child)
    (names : middle.ast.Names (scope.Visible before.ast.decls.size) guard)
    (inScope : ∀ value, middle.ast.Extends after.ast → after.ast.StmtIs id (form value) →
      after.ast.Names (scope.Visible before.ast.decls.size) value →
      after.ast.Scoped scope.Visible before.ast.decls.size [id] middle.ast.decls.size) :
    Advances scope before [id] after := by
  obtain ⟨value, loaded, gives, value_type, carries, puts⟩ := puts
  have decls_eq : loaded.ast.decls.size = middle.ast.decls.size := by rw [gives.1.decls_eq]
  refine advances_of_puts (inBody.adds gives.1) (proceeds.trans (.of_adds gives.1)) puts
    (.of_guard (guarded value) (notReturn value) (undeclared value) value_type gives.2.2)
    (fun returned form => absurd form (notReturn value returned)) ?_ ?_
  · exact fun child member => (children value child member).extends' gives.1.extends'
  · intro formed
    rw [decls_eq]
    refine inScope value (gives.1.extends'.trans (Proceeds.of_puts puts).extends') formed ?_
    exact (carries _ names).extends' (Proceeds.of_puts puts).extends'

/-- A returned value is added to a function. -/
theorem advances_of_returned {value : ExprId} {id : StmtId} {returned : Analysis}
    {parameters : List Ty}
    (inBody : InBody scope before) (gives : Gives before.ast.exprs.size before value returned)
    (declared : (before.ast.kindOf scope.function).type? =
      some (.function (returned.ast.typeOf value) parameters))
    (puts : Puts returned (.returnValue value) id after) : Advances scope before [id] after := by
  have returned_type := gives.1.extends'.type?_eq declared
  refine advances_of_puts (inBody.adds gives.1) (.of_adds gives.1) puts ?_ ?_
    (by simp [Stmt.children]) fun form => ?_
  · refine ⟨by simp, ?_, ?_, by simp [Stmt.declared?]⟩
    · rintro _ ⟨rfl⟩
      exact ⟨scope.function, parameters, returned_type⟩
    · simpa [Stmt.expressions] using gives.2.2
  · rintro _ ⟨rfl⟩
    exact ⟨parameters, returned_type⟩
  · rw [gives.1.decls_eq]
    exact .returnValue form ((inBody.names gives).extends' (Proceeds.of_puts puts).extends')
      (.nil _)

/-- An expression is added as a statement. -/
theorem advances_of_expression {value : ExprId} {id : StmtId}
    (inBody : InBody scope before) (gives : Gives before.ast.exprs.size before value middle)
    (puts : Puts middle (.expression value) id after) : Advances scope before [id] after := by
  refine advances_of_puts (inBody.adds gives.1) (.of_adds gives.1) puts ?_ (by simp)
    (by simp [Stmt.children]) fun form => ?_
  · refine .of_unguarded (by simp) (by simp) ?_ (by simp [Stmt.declared?])
    simpa [Stmt.expressions] using gives.2.2
  · rw [gives.1.decls_eq]
    exact .expression form ((inBody.names gives).extends' (Proceeds.of_puts puts).extends') (.nil _)

/-- A declared object is put in place. -/
theorem advances_of_declared {kind : ObjectKind} {declaration : DeclId} {id : StmtId}
    (inBody : InBody scope before) (declares : DeclaresObject kind before declaration middle)
    (puts : Puts middle (.declaration declaration) id after) :
    Advances scope before [id] after := by
  obtain ⟨type, value, kind_eq, names⟩ := declares.names inBody
  have extends' := (Proceeds.of_puts puts).extends'
  have declared_lt : declaration.index < middle.ast.decls.size := by
    rw [declares.id_eq, declares.size_eq]
    exact Nat.lt_succ_self _
  refine advances_of_puts (declares.inBody inBody) declares.proceeds puts ?_ (by simp)
    (by simp [Stmt.children]) fun form => ?_
  · refine .of_unguarded (by simp) (by simp) (by simp [Stmt.expressions]) ?_
    rintro _ ⟨rfl⟩
    exact declared_lt
  · have after_kind : after.ast.kindOf declaration = .object kind type (some value) :=
      ((Proceeds.of_puts puts).kind_eq _ declared_lt).trans kind_eq
    rw [declares.id_eq] at form after_kind
    rw [declares.size_eq]
    exact .declaration form after_kind (names.extends' extends') (.nil _)

end Statements

end Analysis

end Minilang
