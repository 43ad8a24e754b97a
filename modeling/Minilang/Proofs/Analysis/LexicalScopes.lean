import Minilang.Proofs.Analysis.Declarations
import Minilang.Proofs.Analysis.SparedScopes

/-!
# Analysis in lexical scopes

The scopes that are open in an analysis are frames around a token. Each step that uses or declares a name
does what reading a token does to the frames, and fails where the token cannot be read.
-/

namespace Minilang

open Analysis (Ensures Spares)

/-- Whether a declaration is a constant that has no initializer yet. -/
def DeclKind.IsOpen (kind : DeclKind) : Prop := kind.isConstant = true ∧ kind.initializer? = none

/-- A constant without an initializer is there. -/
theorem Ast.index_lt_of_isOpen {ast : Ast} {id : DeclId} (isOpen : (ast.kindOf id).IsOpen) :
    id.index < ast.decls.size := by
  by_contra absent
  have none_there : ast.kindOf id = .program [] := by
    simp [kindOf, decl, noDecl, Array.getElem?_eq_none (Nat.le_of_not_lt absent)]
  rw [none_there] at isOpen
  exact Bool.false_ne_true isOpen.1

/-- A use of a name is there. -/
theorem Ast.index_lt_of_name {ast : Ast} {id : ExprId} {declaration : DeclId}
    (named : (ast.expr id).kind = .name declaration) : id.index < ast.exprs.size := by
  by_contra absent
  simp [expr, noExpr, Array.getElem?_eq_none (Nat.le_of_not_lt absent)] at named

namespace LexicalScopes

/-- Whether the nodes of a program are those that the tokens read so far introduce. -/
structure Records (scopes : LexicalScopes) (ast : Ast) : Prop where
  /-- Declarations are counted alike. -/
  size_eq : ast.decls.size = scopes.declared.length
  /-- They are called and stand where tokens say. -/
  decl_eq (index : Nat) (token : Token) : scopes.declared[index]? = some token →
    (ast.decl ⟨index⟩).name = token.name ∧ (ast.decl ⟨index⟩).location = token.location
  /-- Only the constant in whose initializer the token stands has none. -/
  own_iff (id : DeclId) : (ast.kindOf id).IsOpen ↔ scopes.own = some id
  /-- Every use of a name has been read. -/
  used (id : ExprId) (declaration : DeclId) : (ast.expr id).kind = .name declaration →
    ∃ token, (token, declaration) ∈ scopes.uses ∧ (ast.expr id).location = token.location

/-- Whether an analysis has come to a token of a text, among expressions, statements and declarations. -/
structure Describes (scopes : LexicalScopes) (analysis : Analysis) : Prop where
  /-- The same names are bound in the scopes that are open. -/
  frames_eq : analysis.scopes.frames.map Scope.bindings = scopes.frames
  /-- All of these but the outermost one are blocks. -/
  kinds_eq : ∃ blocks, analysis.scopes.frames.map Scope.kind =
    List.replicate blocks ScopeKind.block ++ [ScopeKind.global]
  /-- The nodes are those that have been read. -/
  records : scopes.Records analysis.ast

variable {scopes : LexicalScopes}

namespace Records

variable {ast : Ast}

theorem initial : start.Records .empty where
  size_eq := rfl
  decl_eq _ _ found := by cases found
  own_iff _ := ⟨fun isOpen => absurd isOpen.1 Bool.false_ne_true, fun own => by cases own⟩
  used _ _ named := by cases named

/-- Nodes do not depend on frames. -/
theorem moved (records : scopes.Records ast) (place : TokenPlace) (frames : List LexicalFrame) :
    Records { scopes with place, frames } ast :=
  ⟨records.size_eq, records.decl_eq, records.own_iff, records.used⟩

theorem next_eq (records : scopes.Records ast) : scopes.next = ⟨ast.decls.size⟩ := by
  rw [next, records.size_eq]

/-- A declared name is recorded. -/
theorem addDecl (records : scopes.Records ast) (settled : scopes.own = none) {token : Token}
    {decl : Decl} (name_eq : decl.name = token.name) (location_eq : decl.location = token.location)
    {own : Option DeclId} (own_iff : ∀ id, own = some id ↔ decl.kind.IsOpen ∧ id = scopes.next)
    (place : TokenPlace) (frames : List LexicalFrame) :
    Records { scopes with place, frames, declared := scopes.declared ++ [token], own }
      (ast.addDecl decl).2 where
  size_eq := by simp [Ast.addDecl, records.size_eq]
  decl_eq index other found := by
    by_cases earlier : index < ast.decls.size
    · rw [List.getElem?_append_left (records.size_eq ▸ earlier)] at found
      rw [Ast.decl_addDecl_of_lt earlier]
      exact records.decl_eq index other found
    · rw [List.getElem?_append_right (records.size_eq ▸ Nat.le_of_not_lt earlier),
        List.getElem?_singleton] at found
      split at found
      · next last =>
        obtain rfl : index = ast.decls.size := by
          have := records.size_eq
          omega
        cases found
        have added : (ast.addDecl decl).2.decl ⟨ast.decls.size⟩ = decl :=
          Ast.decl_addDecl_self ast decl
        rw [added]
        exact ⟨name_eq, location_eq⟩
      · cases found
  own_iff id := by
    rw [own_iff, records.next_eq]
    have added : (ast.addDecl decl).2.kindOf ⟨ast.decls.size⟩ = decl.kind :=
      congrArg Decl.kind (Ast.decl_addDecl_self ast decl)
    constructor
    · intro isOpen
      have bound := Ast.index_lt_of_isOpen isOpen
      rw [Ast.addDecl, Array.size_push] at bound
      by_cases earlier : id.index < ast.decls.size
      · rw [Ast.kindOf, Ast.decl_addDecl_of_lt earlier] at isOpen
        cases settled.symm.trans ((records.own_iff id).1 isOpen)
      · obtain rfl : id = ⟨ast.decls.size⟩ := by
          have last : id.index = ast.decls.size := by omega
          rw [← last]
        exact ⟨added ▸ isOpen, rfl⟩
    · rintro ⟨isOpen, rfl⟩
      exact added.symm ▸ isOpen
  used id declaration named := records.used id declaration named

/-- What a declaration introduces is completed. -/
theorem setDeclKind (records : scopes.Records ast) {id : DeclId} (declared : id.index < ast.decls.size)
    (own : scopes.own = none ∨ scopes.own = some id) {kind : DeclKind} (complete : ¬kind.IsOpen) :
    Records { scopes with own := none } (ast.setDeclKind id kind) where
  size_eq := by simp [Ast.setDeclKind, records.size_eq]
  decl_eq index token found := by
    rw [Ast.decl_setDeclKind _ _ _ _ declared]
    split
    · next same => exact same ▸ records.decl_eq index token found
    · exact records.decl_eq index token found
  own_iff other := by
    rw [Ast.kindOf, Ast.decl_setDeclKind _ _ _ _ declared]
    refine ⟨fun isOpen => ?_, fun settled => by cases settled⟩
    split at isOpen
    · exact absurd isOpen complete
    · next different =>
      have others := (records.own_iff other).1 isOpen
      obtain settled | same := own
      · cases settled.symm.trans others
      · exact absurd (Option.some.inj (others.symm.trans same)) different
  used use declaration named := records.used use declaration named

/-- A name is used. -/
theorem addName (records : scopes.Records ast) (token : Token) (declaration : DeclId) (type : Ty) :
    Records { scopes with uses := (token, declaration) :: scopes.uses }
      (ast.addExpr ⟨.name declaration, type, token.location⟩).2 where
  size_eq := records.size_eq
  decl_eq := records.decl_eq
  own_iff := records.own_iff
  used id other named := by
    by_cases earlier : id.index < ast.exprs.size
    · rw [Ast.expr_addExpr_of_lt earlier] at named ⊢
      obtain ⟨use, member, location_eq⟩ := records.used id other named
      exact ⟨use, List.mem_cons_of_mem _ member, location_eq⟩
    · have bound := Ast.index_lt_of_name named
      rw [Ast.addExpr, Array.size_push] at bound
      obtain rfl : id = ⟨ast.exprs.size⟩ := by
        have last : id.index = ast.exprs.size := by omega
        rw [← last]
      have added : (ast.addExpr ⟨.name declaration, type, token.location⟩).2.expr ⟨ast.exprs.size⟩ =
          ⟨.name declaration, type, token.location⟩ := Ast.expr_addExpr_self ast _
      rw [added] at named ⊢
      cases named
      exact ⟨token, List.mem_cons_self, rfl⟩

end Records

namespace Describes

variable {before after : Analysis}

/-- Steps that leave scopes alone lead nowhere else. -/
theorem of_spares (describes : scopes.Describes before) (spares : before.Spares after) :
    scopes.Describes after where
  frames_eq := spares.scopes_eq ▸ describes.frames_eq
  kinds_eq := spares.scopes_eq ▸ describes.kinds_eq
  records :=
    { size_eq := spares.decls_eq ▸ describes.records.size_eq
      decl_eq := by
        simp only [Ast.decl, spares.decls_eq]
        exact describes.records.decl_eq
      own_iff := by
        simp only [Ast.kindOf, Ast.decl, spares.decls_eq]
        exact describes.records.own_iff
      used := fun id declaration named => by
        have earlier := spares.use_eq id declaration named
        rw [earlier] at named ⊢
        exact describes.records.used id declaration named }

/-- An analysis does not depend on what introduces a declaration. -/
theorem moved (describes : scopes.Describes before) (place : TokenPlace) :
    Describes { scopes with place } before :=
  ⟨describes.frames_eq, describes.kinds_eq, describes.records.moved place _⟩

/-- Names mean the same. -/
theorem lookup_eq (describes : scopes.Describes before) (name : String) :
    before.scopes.lookup name = scopes.meaning name := by
  rw [meaning, ← describes.frames_eq, List.findSome?_map]
  rfl

/-- A scope is open. -/
theorem frames_cons (describes : scopes.Describes before) :
    ∃ frame outer, before.scopes.frames = frame :: outer := by
  obtain ⟨blocks, kinds_eq⟩ := describes.kinds_eq
  cases frames : before.scopes.frames with
  | nil => simp [frames] at kinds_eq
  | cons frame outer => exact ⟨frame, outer, rfl⟩

/-- Where one frame is left, it is that of the whole program. -/
theorem kind_of_outermost (describes : scopes.Describes before) (outermost : scopes.frames.length = 1) :
    ∃ bindings, before.scopes.frames = [⟨.global, bindings⟩] := by
  obtain ⟨blocks, kinds_eq⟩ := describes.kinds_eq
  have length_eq := congrArg List.length kinds_eq
  rw [← describes.frames_eq, List.length_map] at outermost
  obtain ⟨frame, frames⟩ := List.length_eq_one_iff.1 outermost
  simp only [List.length_map, outermost, List.length_append, List.length_replicate,
    List.length_singleton] at length_eq
  obtain rfl : blocks = 0 := by omega
  refine ⟨frame.bindings, ?_⟩
  simp only [frames, List.map_cons, List.map_nil, List.replicate_zero, List.nil_append,
    List.cons.injEq, and_true] at kinds_eq
  rw [frames, ← kinds_eq]

/-- Where more frames are left, the innermost one is a block. -/
theorem kind_of_inner (describes : scopes.Describes before) (inner : 1 < scopes.frames.length) :
    ∃ frame outer, before.scopes.frames = frame :: outer ∧ frame.kind = .block := by
  obtain ⟨blocks, kinds_eq⟩ := describes.kinds_eq
  obtain ⟨frame, outer, frames⟩ := describes.frames_cons
  rw [← describes.frames_eq, List.length_map] at inner
  have length_eq := congrArg List.length kinds_eq
  simp only [List.length_map, List.length_append, List.length_replicate,
    List.length_singleton] at length_eq
  obtain ⟨others, rfl⟩ : ∃ others, blocks = others + 1 := ⟨blocks - 1, by omega⟩
  rw [frames, List.replicate_succ, List.cons_append, List.map_cons, List.cons.injEq] at kinds_eq
  exact ⟨frame, outer, frames, kinds_eq.1⟩

/-! ## Steps -/

/-- A name is used as its token is read. -/
theorem name_ensures (describes : scopes.Describes before) (token : Token) :
    Ensures (Analysis.name token) before
      (fun _ after => ∃ uses, scopes.use token = .ok { scopes with uses } ∧
        Describes { scopes with uses } after)
      (fun error _ => error.IsOther ∨ scopes.use token = .error error) := by
  rw [Analysis.name, Analysis.ensures_bind]
  refine (Analysis.nameOf_ensures token).mono ?_ ?_
  · rintro name _ ⟨spelled, rfl⟩
    have name_eq : token.name = name := by rw [Token.name, spelled]
    rw [Analysis.ensures_bind, Analysis.ensures_get, describes.lookup_eq, use, name_eq]
    cases scopes.meaning name with
    | none => exact .inr rfl
    | some id =>
        dsimp only
        rw [Analysis.ensures_bind, Analysis.ensures_decl]
        by_cases own : scopes.own = some id
        · have isOpen := (describes.records.own_iff id).2 own
          rw [Ast.kindOf, DeclKind.IsOpen] at isOpen
          rw [if_pos isOpen, if_pos own]
          exact .inr rfl
        · have closed := mt (describes.records.own_iff id).1 own
          rw [Ast.kindOf, DeclKind.IsOpen] at closed
          rw [if_neg closed, if_neg own]
          split
          · exact .inl ⟨rfl, rfl⟩
          · exact ⟨_, rfl, describes.frames_eq, describes.kinds_eq, describes.records.addName token id _⟩
  · rintro error _ ⟨-, -, rfl⟩
    exact .inl ⟨rfl, rfl⟩

theorem enterBlockScope_ensures (describes : scopes.Describes before)
    {onError : Diagnostic → Analysis → Prop} :
    Ensures Analysis.enterBlockScope before
      (fun _ after => Describes { scopes with frames := [] :: scopes.frames } after ∧
        after = before.withScopes (before.scopes.push .block)) onError := by
  refine Analysis.enterBlockScope_ensures.mono ?_ fun _ _ => id
  rintro _ after rfl
  obtain ⟨blocks, kinds_eq⟩ := describes.kinds_eq
  refine ⟨⟨?_, ⟨blocks + 1, ?_⟩, ?_⟩, rfl⟩
  · exact congrArg ([] :: ·) describes.frames_eq
  · rw [List.replicate_succ]
    exact congrArg (ScopeKind.block :: ·) kinds_eq
  · exact describes.records.moved _ _

theorem leaveScope_ensures (describes : scopes.Describes before) (inner : 1 < scopes.frames.length) :
    Ensures Analysis.leaveScope before
      (fun _ after => Describes { scopes with frames := scopes.frames.tail } after)
      (fun _ _ => False) := by
  obtain ⟨frame, outer, frames_eq, -⟩ := describes.kind_of_inner inner
  obtain ⟨blocks, kinds_eq⟩ := describes.kinds_eq
  have popped : before.scopes.pop? = some (frame, ⟨outer⟩) := by
    rw [ScopeChain.pop?, frames_eq]
  rw [Analysis.leaveScope, Analysis.ensures_bind, Analysis.ensures_get, popped]
  refine ⟨?_, ⟨blocks - 1, ?_⟩, ?_⟩
  · rw [← describes.frames_eq, frames_eq]
    rfl
  · have length_eq := congrArg List.length kinds_eq
    rw [← describes.frames_eq, List.length_map] at inner
    simp only [List.length_map, List.length_append, List.length_replicate,
      List.length_singleton] at length_eq
    obtain ⟨others, rfl⟩ : ∃ others, blocks = others + 1 := ⟨blocks - 1, by omega⟩
    rw [frames_eq, List.replicate_succ, List.cons_append, List.map_cons, List.cons.injEq] at kinds_eq
    exact kinds_eq.2
  · exact describes.records.moved _ _

/-- A block inside another one starts with nothing. -/
theorem startBlock_ensures (describes : scopes.Describes before) (inner : 2 < scopes.frames.length) :
    Ensures Analysis.startBlock before (fun _ after => after = before) (fun _ _ => False) := by
  obtain ⟨blocks, kinds_eq⟩ := describes.kinds_eq
  have length_eq := congrArg List.length kinds_eq
  rw [← describes.frames_eq, List.length_map] at inner
  simp only [List.length_map, List.length_append, List.length_replicate,
    List.length_singleton] at length_eq
  obtain ⟨others, rfl⟩ : ∃ others, blocks = others + 2 := ⟨blocks - 2, by omega⟩
  have parent_eq : before.scopes.parentKind? = some .block := by
    rw [ScopeChain.parentKind?, ← List.head?_map, List.map_tail, kinds_eq]
    rfl
  rw [Analysis.startBlock, Analysis.ensures_bind, Analysis.ensures_get, if_pos (by simp [parent_eq])]
  rfl

/-! ## Declarations -/

/-- A name that the innermost frame does not have yet is declared in it. -/
theorem declare_ok {frame : LexicalFrame} {outer : List LexicalFrame}
    (frames_eq : scopes.frames = frame :: outer) {token : Token}
    (fresh : frame.lookup token.name = none) :
    scopes.declare token = .ok { scopes with
      frames := ((token.name, scopes.next) :: frame) :: outer
      declared := scopes.declared ++ [token] } := by
  simp [declare, innermost, frames_eq, fresh]

/-- A name that the innermost frame has is not declared again. -/
theorem declare_error {frame : LexicalFrame} {outer : List LexicalFrame}
    (frames_eq : scopes.frames = frame :: outer) {token : Token}
    (taken : (frame.lookup token.name).isSome = true) :
    scopes.declare token = .error (.semantic token.location (.redeclaration token.name)) := by
  simp [declare, innermost, frames_eq, taken]

end Describes

end LexicalScopes

namespace Analysis

variable {before : Analysis}

/-- A declaration that was just added is bound in the innermost scope, unless that binds its name. -/
theorem declareAdded_binds {frame : Scope} {outer : List Scope}
    (frames_eq : before.scopes.frames = frame :: outer) (decl : Decl) :
    Ensures (declare ⟨before.ast.decls.size⟩) (before.withDecl decl)
      (fun _ after => frame.bindings.lookup decl.name = none ∧
        after = (before.withDecl decl).withScopes
          ⟨frame.bind decl.name ⟨before.ast.decls.size⟩ :: outer⟩)
      (fun error _ => (frame.bindings.lookup decl.name).isSome = true ∧
        error = .semantic decl.location (.redeclaration decl.name)) := by
  have added : (before.withDecl decl).ast.decl ⟨before.ast.decls.size⟩ = decl :=
    Ast.decl_addDecl_self before.ast decl
  have scopes_eq : (before.withDecl decl).scopes.frames = frame :: outer := frames_eq
  rw [declare, ensures_bind, ensures_decl, ensures_bind, ensures_get, added, ScopeChain.declare,
    scopes_eq]
  dsimp only
  rw [Scope.get?]
  cases frame.bindings.lookup decl.name with
  | none => exact ⟨rfl, rfl⟩
  | some existing => exact ⟨rfl, rfl⟩

end Analysis

namespace LexicalScopes

variable {scopes : LexicalScopes} {before : Analysis}

/-- A declaration that was just added is bound as its name is declared. -/
theorem Describes.declareAdded_ensures (describes : scopes.Describes before)
    (settled : scopes.own = none) {token : Token} {decl : Decl} (name_eq : decl.name = token.name)
    (location_eq : decl.location = token.location) :
    Ensures (Analysis.declare ⟨before.ast.decls.size⟩) (before.withDecl decl)
      (fun _ after => ∃ later, scopes.declare token = .ok later ∧ later.own = none ∧
        later.frames.length = scopes.frames.length ∧
        after.ast = (before.ast.addDecl decl).2 ∧
        ∀ place own, (∀ id, own = some id ↔ decl.kind.IsOpen ∧ id = scopes.next) →
          Describes { later with place, own } after)
      (fun error _ => scopes.declare token = .error error) := by
  obtain ⟨frame, outer, frames⟩ := describes.frames_cons
  have frames_eq : scopes.frames = frame.bindings :: outer.map Scope.bindings := by
    rw [← describes.frames_eq, frames, List.map_cons]
  refine (Analysis.declareAdded_binds frames decl).mono ?_ ?_
  · rintro _ after ⟨fresh, rfl⟩
    rw [name_eq] at fresh
    refine ⟨_, Describes.declare_ok frames_eq fresh, settled, ?_, rfl, fun place own own_iff => ?_⟩
    · rw [frames_eq, List.length_cons, List.length_cons]
    refine ⟨?_, ?_, describes.records.addDecl settled name_eq location_eq own_iff place _⟩
    · rw [describes.records.next_eq]
      exact congrArg (fun name => ((name, (⟨before.ast.decls.size⟩ : DeclId)) :: frame.bindings) ::
        outer.map Scope.bindings) name_eq
    · obtain ⟨blocks, kinds_eq⟩ := describes.kinds_eq
      rw [frames] at kinds_eq
      exact ⟨blocks, kinds_eq⟩
  · rintro error _ ⟨taken, rfl⟩
    rw [name_eq] at taken ⊢
    rw [location_eq]
    exact Describes.declare_error frames_eq taken

/-- An object is declared where its type ends. -/
theorem Describes.declareObject_ensures (describes : scopes.Describes before)
    (settled : scopes.own = none) (kind : ObjectKind) (token : Token) (type : Ty) :
    Ensures (Analysis.declareObject kind token type) before
      (fun id after => ∃ later, scopes.complete (.object kind token) = .ok later ∧
        later.place = .code ∧ (later.own = none ∨ later.own = some id) ∧
        later.frames.length = scopes.frames.length ∧ later.Describes after)
      (fun error _ => error.IsOther ∨ scopes.complete (.object kind token) = .error error) := by
  rw [Analysis.declareObject, Analysis.declareNew, Analysis.ensures_bind]
  refine (Analysis.nameOf_ensures token).mono ?_ ?_
  · rintro name before ⟨spelled, rfl⟩
    rw [Analysis.ensures_bind, Analysis.ensures_addDecl, Analysis.ensures_bind]
    have name_eq : (⟨name, token.location, .object kind type none⟩ : Decl).name = token.name := by
      rw [Token.name, spelled]
    refine (describes.declareAdded_ensures settled name_eq rfl).mono ?_ ?_
    · rintro _ after ⟨later, declared, -, length_eq, -, describes_later⟩
      rw [complete, declared]
      refine ⟨_, rfl, rfl, ?_, length_eq, describes_later _ _ fun id => ?_⟩
      · rw [describes.records.next_eq]
        cases kind <;> simp
      · cases kind <;> simp [DeclKind.IsOpen, DeclKind.isConstant, DeclKind.initializer?, eq_comm]
    · intro error _ failed
      rw [complete, failed]
      exact .inr rfl
  · rintro error _ ⟨-, -, rfl⟩
    exact .inl ⟨rfl, rfl⟩

/-- An object gets its initializer. -/
theorem Describes.defineObject_ensures (describes : scopes.Describes before) {id : DeclId}
    (own : scopes.own = none ∨ scopes.own = some id) (initializer : ExprId) :
    Ensures (Analysis.defineObject id initializer) before
      (fun _ after => Describes { scopes with own := none } after) (fun error _ => error.IsOther) := by
  rw [Analysis.defineObject, Analysis.ensures_bind]
  refine ((Analysis.SparesScopes.load initializer).ensures before).mono ?_ fun _ _ other => other
  intro value middle spares
  replace describes := describes.of_spares spares
  have same (type : Ty) : Ensures (Analysis.requireSame type value) middle
      (fun _ after => scopes.Describes after ∧ after.ast.kindOf id = middle.ast.kindOf id)
      fun error _ => error.IsOther := by
    refine ((Analysis.SparesScopes.requireSame type value).ensures middle).mono ?_ fun _ _ other => other
    intro _ after spares
    exact ⟨describes.of_spares spares, by rw [Ast.kindOf, Ast.decl, spares.decls_eq]; rfl⟩
  rw [Analysis.ensures_bind, Analysis.ensures_decl, ← Ast.kindOf]
  cases introduced : middle.ast.kindOf id with
  | object kind type earlier =>
      dsimp only [DeclKind.type?]
      rw [Analysis.ensures_bind]
      refine (same type).mono ?_ fun _ _ other => other
      rintro _ after ⟨describes, kind_eq⟩
      rw [Analysis.ensures_bind, Analysis.ensures_get]
      split
      · exact ⟨rfl, rfl⟩
      · cases earlier with
        | none =>
            have declared : id.index < after.ast.decls.size :=
              Ast.index_lt_of_type? (by rw [kind_eq, introduced, DeclKind.type?])
            exact ⟨describes.frames_eq, describes.kinds_eq,
              describes.records.setDeclKind declared own fun isOpen => by cases isOpen.2⟩
        | some earlier => exact ⟨rfl, rfl⟩
  | parameter type | function type parameters body =>
      dsimp only [DeclKind.type?]
      rw [Analysis.ensures_bind]
      refine (same type).mono ?_ fun _ _ other => other
      rintro _ after -
      rw [Analysis.ensures_bind, Analysis.ensures_get, if_neg (by simp [DeclKind.isConstant])]
      exact ⟨rfl, rfl⟩
  | program declarations => exact ⟨rfl, rfl⟩

/-- The function being defined gets its body. -/
theorem Describes.defineFunction_ensures (describes : scopes.Describes before)
    (settled : scopes.own = none) (id : DeclId) (body : StmtId) :
    Ensures (Analysis.defineFunction id body) before
      (fun _ after => Describes { scopes with own := none } after) (fun error _ => error.IsOther) := by
  rw [Analysis.defineFunction, Analysis.ensures_bind, Analysis.ensures_get]
  split
  · exact ⟨rfl, rfl⟩
  · rw [Analysis.ensures_bind, Analysis.ensures_decl, ← Ast.kindOf]
    split
    · next type parameters introduced =>
      have declared : id.index < before.ast.decls.size :=
        Ast.index_lt_of_type? (by rw [introduced, DeclKind.type?])
      exact ⟨describes.frames_eq, describes.kinds_eq,
        describes.records.setDeclKind declared (.inl settled) fun isOpen => by cases isOpen.1⟩
    · exact ⟨rfl, rfl⟩
    · exact ⟨rfl, rfl⟩

/-! ## Functions and parameters -/

end LexicalScopes

/-- Whether a frame has the names of declarations, each of them once and the latest one first. -/
structure LexicalFrame.Lists (frame : LexicalFrame) (ast : Ast) (ids : List DeclId) : Prop where
  /-- The frame has these names. -/
  entries_eq : frame = (ids.map fun id => ((ast.decl id).name, id)).reverse
  /-- The declarations are there. -/
  index_lt : ∀ id ∈ ids, id.index < ast.decls.size
  /-- No name is there twice. -/
  nodup : (frame.map Prod.fst).Nodup

namespace LexicalFrame

variable {frame : LexicalFrame} {ast : Ast} {ids : List DeclId}

theorem lists_nil (ast : Ast) : Lists [] ast [] := ⟨rfl, List.forall_mem_nil _, List.nodup_nil⟩

namespace Lists

/-- More declarations may be there. -/
theorem addDecl (lists : frame.Lists ast ids) (decl : Decl) :
    frame.Lists (ast.addDecl decl).2 ids where
  entries_eq := by
    rw [lists.entries_eq]
    refine congrArg List.reverse (List.map_congr_left fun id member => ?_)
    rw [Ast.decl_addDecl_of_lt (lists.index_lt id member)]
  index_lt id member := (lists.index_lt id member).trans_le (by simp [Ast.addDecl])
  nodup := lists.nodup

/-- One more declaration is listed. -/
theorem added (lists : frame.Lists ast ids) {decl : Decl} (fresh : frame.lookup decl.name = none) :
    Lists ((decl.name, ⟨ast.decls.size⟩) :: frame) (ast.addDecl decl).2
      (ids ++ [⟨ast.decls.size⟩]) where
  entries_eq := by
    have added : (ast.addDecl decl).2.decl ⟨ast.decls.size⟩ = decl :=
      Ast.decl_addDecl_self ast decl
    rw [List.map_append, List.reverse_append, (lists.addDecl decl).entries_eq]
    simp [added]
  index_lt := by
    refine List.forall_mem_append.2 ⟨(lists.addDecl decl).index_lt, ?_⟩
    simp [Ast.addDecl]
  nodup := by
    rw [List.map_cons, List.nodup_cons]
    refine ⟨fun member => ?_, lists.nodup⟩
    obtain ⟨entry, entry_mem, same⟩ := List.mem_map.1 member
    exact absurd same.symm (by simpa using List.lookup_eq_none_iff.1 fresh entry entry_mem)

end Lists

end LexicalFrame

namespace Analysis

variable {before : Analysis}

/-- Declarations are bound one after another in a scope that has none of their names. -/
theorem declareAll_binds {kind : ScopeKind} {bound : LexicalFrame} {outer : List Scope}
    (frames_eq : before.scopes.frames = ⟨kind, bound⟩ :: outer) {ids : List DeclId}
    (nodup : (((ids.map fun id => ((before.ast.decl id).name, id)).reverse ++ bound).map
      Prod.fst).Nodup) :
    Ensures (ids.forM declare) before
      (fun _ after => after = before.withScopes
        ⟨⟨kind, (ids.map fun id => ((before.ast.decl id).name, id)).reverse ++ bound⟩ :: outer⟩)
      (fun _ _ => False) := by
  induction ids generalizing before bound with
  | nil =>
      rw [List.map_nil, List.reverse_nil, List.nil_append, ← frames_eq]
      rfl
  | cons id ids induction =>
      rw [List.map_cons, List.reverse_cons, List.append_assoc, List.singleton_append] at nodup ⊢
      have fresh : bound.lookup (before.ast.decl id).name = none := by
        rw [List.map_append, List.map_cons] at nodup
        have unbound := (List.nodup_cons.1 (List.nodup_append.1 nodup).2.1).1
        refine List.lookup_eq_none_iff.2 fun entry member => ?_
        have different : (before.ast.decl id).name ≠ entry.1 := fun same =>
          unbound (List.mem_map.2 ⟨entry, member, same.symm⟩)
        simpa using different
      rw [show (id :: ids).forM declare = (do declare id; ids.forM declare) from rfl, ensures_bind,
        declare, ensures_bind, ensures_decl, ensures_bind, ensures_get, ScopeChain.declare, frames_eq]
      dsimp only
      rw [Scope.get?]
      dsimp only
      rw [fresh]
      dsimp only
      rw [ensures_setScopes]
      exact induction rfl nodup

end Analysis

namespace LexicalScopes

variable {scopes : LexicalScopes} {before : Analysis} {found : LexicalFrame} {ids : List DeclId}

/-- Whether an analysis has come to a token among the parameters of a function. -/
structure DescribesParameters (scopes : LexicalScopes) (found : LexicalFrame) (ids : List DeclId)
    (analysis : Analysis) : Prop where
  /-- Parameters are bound in a scope of their own, inside of those that are described. -/
  opened : ∃ outer, analysis.scopes.frames = ⟨.parameter, found⟩ :: outer ∧
    scopes.Describes (analysis.withScopes ⟨outer⟩)
  /-- These are the parameters found so far. -/
  lists : found.Lists analysis.ast ids

theorem Describes.enterParameterScope_ensures (describes : scopes.Describes before)
    {onError : Diagnostic → Analysis → Prop} :
    Ensures Analysis.enterParameterScope before (fun _ => scopes.DescribesParameters [] [])
      onError := by
  refine Analysis.enterParameterScope_ensures.mono ?_ fun _ _ => id
  rintro _ after rfl
  exact ⟨⟨before.scopes.frames, rfl, describes.frames_eq, describes.kinds_eq, describes.records⟩,
    LexicalFrame.lists_nil _⟩

namespace DescribesParameters

theorem moved (describes : scopes.DescribesParameters found ids before) (place : TokenPlace) :
    DescribesParameters { scopes with place } found ids before := by
  obtain ⟨outer, frames, outside⟩ := describes.opened
  exact ⟨⟨outer, frames, outside.moved place⟩, describes.lists⟩

/-- A parameter is declared where its type ends. -/
theorem declareParameter_ensures (describes : scopes.DescribesParameters found ids before)
    (settled : scopes.own = none) (function token : Token) (type : Ty) :
    Ensures (Analysis.declareParameter token type) before
      (fun id after => ∃ later, scopes.complete (.parameter function found token) = .ok later ∧
        later.place = .parameters function ((token.name, scopes.next) :: found) ∧
        later.own = none ∧ later.frames = scopes.frames ∧
        later.DescribesParameters ((token.name, scopes.next) :: found) (ids ++ [id]) after)
      (fun error _ => error.IsOther ∨
        scopes.complete (.parameter function found token) = .error error) := by
  rw [Analysis.declareParameter, Analysis.declareNew, Analysis.ensures_bind]
  refine (Analysis.nameOf_ensures token).mono ?_ ?_
  · rintro name before ⟨spelled, rfl⟩
    obtain ⟨outer, frames, outside⟩ := describes.opened
    have next_eq : scopes.next = ⟨before.ast.decls.size⟩ := outside.records.next_eq
    have name_eq : token.name = name := by rw [Token.name, spelled]
    rw [Analysis.ensures_bind, Analysis.ensures_addDecl, Analysis.ensures_bind]
    refine (Analysis.declareAdded_binds frames ⟨name, token.location, .parameter type⟩).mono ?_ ?_
    · rintro _ after ⟨fresh, rfl⟩
      have added := describes.lists.added fresh
      dsimp only at fresh
      rw [complete, name_eq, next_eq, fresh]
      refine ⟨_, rfl, rfl, settled, rfl, ⟨outer, rfl, outside.frames_eq, outside.kinds_eq, ?_⟩, ?_⟩
      · refine outside.records.addDecl settled name_eq.symm rfl (fun id => ?_) _ _
        rw [settled]
        simp [DeclKind.IsOpen, DeclKind.isConstant]
      · exact added
    · rintro error _ ⟨taken, rfl⟩
      rw [complete, name_eq, if_pos taken]
      exact .inr rfl
  · rintro error _ ⟨-, -, rfl⟩
    exact .inl ⟨rfl, rfl⟩

theorem leaveScope_ensures (describes : scopes.DescribesParameters found ids before) :
    Ensures Analysis.leaveScope before
      (fun _ after => scopes.Describes after ∧ found.Lists after.ast ids) (fun _ _ => False) := by
  obtain ⟨outer, frames, outside⟩ := describes.opened
  have popped : before.scopes.pop? = some (⟨.parameter, found⟩, ⟨outer⟩) := by
    rw [ScopeChain.pop?, frames]
  rw [Analysis.leaveScope, Analysis.ensures_bind, Analysis.ensures_get, popped]
  exact ⟨outside, describes.lists⟩

end DescribesParameters

/-- A function is declared where its result type ends. -/
theorem Describes.declareFunction_ensures (describes : scopes.Describes before)
    (settled : scopes.own = none) (lists : found.Lists before.ast ids) (token : Token) (result : Ty) :
    Ensures (Analysis.declareFunction token ids result) before
      (fun id after => ∃ later, scopes.complete (.function token found) = .ok later ∧
        later.place = .body found ∧ later.own = none ∧
        later.frames.length = scopes.frames.length ∧ later.Describes after ∧
        after.function = some id ∧ (after.ast.kindOf id).parameters = ids ∧ found.Lists after.ast ids)
      (fun error _ => error.IsOther ∨ scopes.complete (.function token found) = .error error) := by
  rw [Analysis.declareFunction, Analysis.ensures_bind]
  refine (Analysis.nameOf_ensures token).mono ?_ ?_
  · rintro name before ⟨spelled, rfl⟩
    rw [Analysis.ensures_bind, Analysis.ensures_get]
    split
    · exact .inl ⟨rfl, rfl⟩
    rw [Analysis.ensures_bind, Analysis.ensures_addDecl, Analysis.ensures_bind]
    have name_eq (kind : DeclKind) : (⟨name, token.location, kind⟩ : Decl).name = token.name := by
      rw [Token.name, spelled]
    refine (describes.declareAdded_ensures settled (name_eq _) rfl).mono ?_ ?_
    · rintro _ after ⟨later, declared, settled', length_eq, ast_eq, describes_later⟩
      rw [complete, declared, Analysis.ensures_bind, Analysis.ensures_setFunction]
      have described := describes_later (.body found) later.own fun id => by
        rw [settled']
        simp [DeclKind.IsOpen, DeclKind.isConstant]
      refine ⟨_, rfl, rfl, settled', length_eq,
        ⟨described.frames_eq, described.kinds_eq, described.records⟩, rfl, ?_, ?_⟩
      · simp [Ast.kindOf, ast_eq, Ast.decl, Ast.addDecl, DeclKind.parameters]
      · exact ast_eq ▸ lists.addDecl _
    · intro error _ failed
      rw [complete, failed]
      exact .inr rfl
  · rintro error _ ⟨-, -, rfl⟩
    exact .inl ⟨rfl, rfl⟩

/-- The body of a function starts with its parameters. -/
theorem Describes.startBody_ensures (describes : scopes.Describes before)
    (outermost : scopes.frames.length = 1) {function : DeclId}
    (function_eq : before.function = some function)
    (parameters_eq : (before.ast.kindOf function).parameters = ids)
    (lists : found.Lists before.ast ids) :
    Ensures Analysis.startBlock (before.withScopes (before.scopes.push .block))
      (fun _ after => Describes { scopes with place := .code, frames := found :: scopes.frames } after)
      (fun _ _ => False) := by
  obtain ⟨bindings, frames⟩ := describes.kind_of_outermost outermost
  have parent_eq : (before.scopes.push .block).parentKind? = some .global := by
    rw [ScopeChain.parentKind?, ScopeChain.push, frames]
    rfl
  rw [Analysis.startBlock, Analysis.ensures_bind, Analysis.ensures_get, Analysis.withScopes]
  dsimp only
  rw [if_neg (not_not.2 parent_eq), function_eq]
  dsimp only
  rw [← Ast.kindOf, parameters_eq]
  refine (Analysis.declareAll_binds rfl ?_).mono ?_ fun _ _ => id
  · rw [List.append_nil, ← lists.entries_eq]
    exact lists.nodup
  · rintro _ after rfl
    rw [List.append_nil, ← lists.entries_eq]
    obtain ⟨blocks, kinds_eq⟩ := describes.kinds_eq
    refine ⟨congrArg (found :: ·) describes.frames_eq, ⟨blocks + 1, ?_⟩, ?_⟩
    · rw [List.replicate_succ]
      exact congrArg (ScopeKind.block :: ·) kinds_eq
    · exact describes.records.moved _ _

end LexicalScopes

end Minilang
