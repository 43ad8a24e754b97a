import Mathlib.Data.List.Nodup
import Minilang.Proofs.Analysis.Bodies

/-!
# Coherent programs

In a coherent program everything at the top is complete, names at the top are different, and names inside
lead to what is in scope. The declarations that belong to a function are numbered from the function on, so
that no two functions share any.
-/

namespace Minilang

namespace Ast

/-- A declaration at the top of a program that is complete, where a number of declarations have been
made. -/
inductive TopLevel (ast : Ast) (globals : List DeclId) (count : Nat) (id : DeclId) : Prop
  | object {kind : ObjectKind} {type : Ty} {initializer : ExprId} :
      ast.kindOf id = .object kind type (some initializer) →
      ast.Names (· ∈ globals) initializer → (kind ≠ .var → ast.Pure initializer) →
      TopLevel ast globals count id
  | function {result : Ty} {parameters : List DeclId} {body : StmtId} {next : Nat} :
      ast.kindOf id =
        .function (.function result (Analysis.typesOf ast parameters)) parameters (some body) →
      (∀ parameter ∈ parameters, ∃ type, ast.kindOf parameter = .parameter type) →
      parameters.Nodup →
      ast.Scoped (FunctionScope.Visible ⟨globals, parameters, id⟩) (id.index + 1) [body] next →
      next ≤ count →
      (∀ other ∈ globals, other.index ≤ id.index ∨ next ≤ other.index) →
      ast.Returns id body →
      TopLevel ast globals count id

theorem TopLevel.typed {ast : Ast} {globals : List DeclId} {count : Nat} {id : DeclId}
    (topLevel : ast.TopLevel globals count id) :
    ∃ type, (ast.kindOf id).type? = some type := by
  cases topLevel with
  | object kind_eq => exact ⟨_, by rw [kind_eq, DeclKind.type?]⟩
  | function kind_eq => exact ⟨_, by rw [kind_eq, DeclKind.type?]⟩

/-- The types of parameters stay the same as a program grows. -/
theorem typesOf_eq_of_extends {before after : Ast} (extends' : before.Extends after)
    {parameters : List DeclId}
    (typed : ∀ parameter ∈ parameters, ∃ type, before.kindOf parameter = .parameter type) :
    Analysis.typesOf after parameters = Analysis.typesOf before parameters := by
  rw [Analysis.typesOf, Analysis.typesOf]
  refine List.filterMap_congr ?_
  intro parameter member
  obtain ⟨type, kind_eq⟩ := typed parameter member
  have declared : (before.kindOf parameter).type? = some type := by rw [kind_eq, DeclKind.type?]
  rw [declared, extends'.type?_eq declared]

/-- Where every parameter has a type there are as many types as parameters. -/
theorem length_typesOf {ast : Ast} {parameters : List DeclId}
    (typed : ∀ parameter ∈ parameters, ∃ type, (ast.kindOf parameter).type? = some type) :
    (Analysis.typesOf ast parameters).length = parameters.length := by
  rw [Analysis.typesOf, List.length_filterMap_eq_countP, List.countP_eq_length]
  intro parameter member
  obtain ⟨type, found⟩ := typed parameter member
  rw [found, Option.isSome_some]

/-- What is at the top stays complete as a program grows. -/
theorem TopLevel.extends' {before after : Ast} {globals more : List DeclId} {count later : Nat}
    {id : DeclId} (topLevel : before.TopLevel globals count id) (extends' : before.Extends after)
    (globals_le : ∀ other ∈ globals, other ∈ more)
    (more_le : ∀ other ∈ more, other ∈ globals ∨ count ≤ other.index) (count_le : count ≤ later) :
    after.TopLevel more later id := by
  obtain ⟨type, typed⟩ := topLevel.typed
  have completes := extends'.completes id (index_lt_of_type? typed)
  cases topLevel with
  | object kind_eq names pure =>
      rw [kind_eq] at completes
      exact .object completes.eq_of_initialized ((names.extends' extends').mono globals_le)
        fun isConstant => (pure isConstant).extends' extends'
  | @function result parameters body next kind_eq parameter_eq nodup inScope next_le apart
      returns =>
      rw [kind_eq] at completes
      have kind_eq' := completes.eq_of_defined
      rw [← typesOf_eq_of_extends extends' parameter_eq] at kind_eq'
      refine .function kind_eq' ?_ nodup ?_ (next_le.trans count_le) ?_ (returns.extends' extends')
      · intro parameter member
        obtain ⟨type, parameter_kind⟩ := parameter_eq parameter member
        have declared : (before.kindOf parameter).type? = some type := by
          rw [parameter_kind, DeclKind.type?]
        have completes := extends'.completes parameter (index_lt_of_type? declared)
        rw [parameter_kind] at completes
        exact ⟨type, completes.eq_of_parameter⟩
      · refine (inScope.extends' extends').mono fun count declaration visible => ?_
        obtain atTop | inside := visible
        · exact .inl (globals_le declaration atTop)
        · exact .inr inside
      · intro other member
        obtain atTop | newer := more_le other member
        · exact apart other atTop
        · exact .inr (next_le.trans newer)

end Ast

/-- A program that is complete, typed and scoped. -/
structure Program.Coherent (program : Program) : Prop where
  /-- Every node is typed. -/
  sound : program.ast.Sound
  /-- Names at the top are different. -/
  names_nodup : (program.declarations.map fun id => (program.ast.decl id).name).Nodup
  /-- Everything at the top is complete. -/
  topLevel : ∀ id ∈ program.declarations,
    program.ast.TopLevel program.declarations program.ast.decls.size id

namespace Analysis

/-- A state between the declarations at the top of a program. -/
structure AtTop (globals : List DeclId) (analysis : Analysis) : Prop where
  /-- The program is sound. -/
  sound : analysis.ast.Sound
  /-- No function is being defined. -/
  outside : analysis.function = none
  /-- The one scope that is open binds the declarations so far. -/
  frames_eq : analysis.scopes.frames =
    [⟨.global, (globals.map fun id => ((analysis.ast.decl id).name, id)).reverse⟩]
  /-- Names are different. -/
  names_nodup : (globals.map fun id => (analysis.ast.decl id).name).Nodup
  /-- All declarations are complete. -/
  topLevel : ∀ id ∈ globals, analysis.ast.TopLevel globals analysis.ast.decls.size id

/-- A name that is bound in an association list is bound to one of its values. -/
private theorem mem_of_lookup {bindings : List (String × DeclId)} {name : String}
    {declaration : DeclId} (found : bindings.lookup name = some declaration) :
    (name, declaration) ∈ bindings := by
  induction bindings with
  | nil => cases found
  | cons binding bindings induction =>
      rw [List.lookup_cons] at found
      by_cases same : name = binding.1
      · simp only [same, beq_self_eq_true, Option.some.injEq] at found
        rw [same, ← found]
        exact List.mem_cons_self
      · simp only [beq_eq_false_iff_ne.2 same] at found
        exact List.mem_cons_of_mem _ (induction found)

private theorem ne_of_lookup_eq_none {bindings : List (String × DeclId)} {name : String}
    (unbound : bindings.lookup name = none) {binding : String × DeclId}
    (member : binding ∈ bindings) : binding.1 ≠ name := by
  induction bindings with
  | nil => cases member
  | cons first bindings induction =>
      rw [List.lookup_cons] at unbound
      by_cases same : name = first.1
      · simp [same] at unbound
      · simp only [beq_eq_false_iff_ne.2 same] at unbound
        obtain rfl | member := List.mem_cons.1 member
        · exact fun equal => same equal.symm
        · exact induction unbound member

namespace AtTop

variable {globals : List DeclId} {before after : Analysis}

/-- Names lead to declarations at the top. -/
theorem mem_of_lookup (atTop : AtTop globals before) {name : String} {declaration : DeclId}
    (found : before.scopes.lookup name = some declaration) : declaration ∈ globals := by
  rw [ScopeChain.lookup, atTop.frames_eq, List.findSome?_singleton] at found
  have member := Analysis.mem_of_lookup found
  rw [List.mem_reverse, List.mem_map] at member
  obtain ⟨id, id_mem, same⟩ := member
  cases same
  exact id_mem

theorem namesTyped (atTop : AtTop globals before) : before.NamesTyped :=
  fun _ declaration found => (atTop.topLevel declaration (atTop.mem_of_lookup found)).typed

theorem index_lt (atTop : AtTop globals before) : ∀ id ∈ globals,
    id.index < before.ast.decls.size := by
  intro id member
  obtain ⟨type, typed⟩ := (atTop.topLevel id member).typed
  exact Ast.index_lt_of_type? typed

/-- A new name at the top goes in front of the others. -/
theorem frames_of_declare (atTop : AtTop globals before) {name : String} {id : DeclId}
    {scopes : ScopeChain} (bound : before.scopes.declare name id = .ok scopes) :
    scopes.frames = [⟨.global, (name, id) ::
        (globals.map fun id => ((before.ast.decl id).name, id)).reverse⟩] ∧
      ∀ other ∈ globals, (before.ast.decl other).name ≠ name := by
  rw [ScopeChain.declare, atTop.frames_eq] at bound
  dsimp only at bound
  split at bound
  · cases bound
  · next unbound =>
    cases bound
    refine ⟨rfl, fun other member => ?_⟩
    have bound : ((before.ast.decl other).name, other) ∈
        (globals.map fun id => ((before.ast.decl id).name, id)).reverse := by
      rw [List.mem_reverse, List.mem_map]
      exact ⟨other, member, rfl⟩
    exact ne_of_lookup_eq_none unbound bound

/-- A complete declaration at the top may be followed by another one. -/
theorem append (atTop : AtTop globals before) {id : DeclId}
    (extends' : before.ast.Extends after.ast) (sound : after.ast.Sound)
    (outside : after.function = none)
    (bound : before.scopes.declare (after.ast.decl id).name id = .ok after.scopes)
    (newer : before.ast.decls.size ≤ id.index)
    (topLevel : after.ast.TopLevel (globals ++ [id]) after.ast.decls.size id) :
    AtTop (globals ++ [id]) after := by
  have names_eq : (globals.map fun id => ((after.ast.decl id).name, id)) =
      globals.map fun id => ((before.ast.decl id).name, id) :=
    List.map_congr_left fun other member => by
      rw [extends'.name_eq other (atTop.index_lt other member)]
  have names_eq' : (globals.map fun id => (after.ast.decl id).name) =
      globals.map fun id => (before.ast.decl id).name :=
    List.map_congr_left fun other member => by
      rw [extends'.name_eq other (atTop.index_lt other member)]
  obtain ⟨frames_eq, different⟩ := atTop.frames_of_declare bound
  refine ⟨sound, outside, ?_, ?_, ?_⟩
  · rw [frames_eq, List.map_append, List.reverse_append, names_eq]
    rfl
  · rw [List.map_append, List.nodup_append, names_eq']
    refine ⟨atTop.names_nodup, List.nodup_singleton _, ?_⟩
    intro name member other other_mem
    rw [List.map_singleton, List.mem_singleton] at other_mem
    obtain ⟨global, global_mem, rfl⟩ := List.mem_map.1 member
    rw [other_mem]
    exact different global global_mem
  · intro other member
    obtain member | member := List.mem_append.1 member
    · refine (atTop.topLevel other member).extends' extends'
        (fun _ member => List.mem_append_left _ member) ?_ extends'.decls_le
      intro another another_mem
      obtain another_mem | another_mem := List.mem_append.1 another_mem
      · exact .inl another_mem
      · rw [List.mem_singleton] at another_mem
        exact .inr (another_mem ▸ newer)
    · rw [List.mem_singleton] at member
      rw [member]
      exact topLevel

/-- An object may be declared at the top. -/
theorem declares {kind : ObjectKind} {id : DeclId} (atTop : AtTop globals before)
    (declares : DeclaresObject kind before id after) : AtTop (globals ++ [id]) after := by
  obtain ⟨type, value, kind_eq, names⟩ := declares.initialized
  refine atTop.append declares.grows.extends' (declares.grows.sound atTop.sound)
    (declares.function_eq.trans atTop.outside) declares.bound (by rw [declares.id_eq])
    (.object kind_eq (names.mono ?_) fun isConstant => ?_)
  · rintro declaration ⟨⟨name, found⟩, -⟩
    rw [ScopeChain.lookup_of_declare declares.bound] at found
    split at found
    · cases found
      exact List.mem_append_right _ (List.mem_singleton.2 rfl)
    · exact List.mem_append_left _ (atTop.mem_of_lookup found)
  · refine declares.pure atTop.sound isConstant ?_ value (by rw [kind_eq, DeclKind.initializer?])
    rw [ScopeChain.currentKind?, ScopeChain.current?, (atTop.frames_of_declare declares.bound).1]
    rfl

end AtTop


/-- A state behind some parameters of a function, whose declaration has not been reached. -/
structure DeclaresParameters (before : Analysis) (parameters : List DeclId) (after : Analysis) :
    Prop where
  /-- Nodes are kept. -/
  grows : Grows before after
  /-- Older declarations are left alone. -/
  kind_eq (id : DeclId) : id.index < before.ast.decls.size →
    after.ast.kindOf id = before.ast.kindOf id
  /-- The scopes around the parameters are left alone. -/
  outer_eq : after.scopes.frames.tail = before.scopes.frames
  /-- The scope of the parameters is open. -/
  frames_ne : after.scopes.frames ≠ []
  /-- No function is being defined that was not before. -/
  function_eq : after.function = before.function
  /-- Parameters are new. -/
  parameter_le : ∀ parameter ∈ parameters, before.ast.decls.size ≤ parameter.index
  /-- Parameters are there. -/
  parameter_eq : ∀ parameter ∈ parameters, ∃ type,
    after.ast.kindOf parameter = .parameter type
  /-- Parameters are different. -/
  nodup : parameters.Nodup

namespace DeclaresParameters

variable {before middle after : Analysis} {parameters : List DeclId}

theorem nil (before : Analysis) :
    DeclaresParameters before [] (before.withScopes (before.scopes.push .parameter)) where
  grows := grows_withScopes _ _
  kind_eq _ _ := rfl
  outer_eq := rfl
  frames_ne := List.cons_ne_nil _ _
  function_eq := rfl
  parameter_le := by simp
  parameter_eq := by simp
  nodup := List.nodup_nil

theorem index_lt (declares : DeclaresParameters before parameters after) :
    ∀ parameter ∈ parameters, parameter.index < after.ast.decls.size := by
  intro parameter member
  obtain ⟨type, kind_eq⟩ := declares.parameter_eq parameter member
  exact Ast.index_lt_of_type? (by rw [kind_eq, DeclKind.type?])

/-- One more parameter is declared behind the others. -/
theorem append (declares : DeclaresParameters before parameters middle) {name : String}
    {location : Location} {type : Ty} {scopes : ScopeChain}
    (bound : middle.scopes.declare name ⟨middle.ast.decls.size⟩ = .ok scopes)
    (after_eq : after =
      (middle.withDecl ⟨name, location, .parameter type⟩).withScopes scopes) :
    DeclaresParameters before (parameters ++ [⟨middle.ast.decls.size⟩]) after := by
  have extends' := Ast.Extends.addDecl middle.ast ⟨name, location, .parameter type⟩
  have grows : Grows middle after :=
    after_eq ▸ (grows_withDecl middle rfl).trans (grows_withScopes _ scopes)
  have kind_eq (id : DeclId) (earlier : id.index < middle.ast.decls.size) :
      after.ast.kindOf id = middle.ast.kindOf id := by
    rw [after_eq, Ast.kindOf, withScopes, withDecl, Ast.decl_addDecl_of_lt earlier, Ast.kindOf]
  have added : after.ast.kindOf ⟨middle.ast.decls.size⟩ = .parameter type := by
    rw [after_eq, Ast.kindOf]
    exact congrArg Decl.kind (Ast.decl_addDecl_self middle.ast _)
  refine ⟨declares.grows.trans grows, ?_, ?_, ?_, ?_, ?_, ?_, ?_⟩
  · intro id earlier
    rw [kind_eq id (earlier.trans_le declares.grows.extends'.decls_le), declares.kind_eq id earlier]
  · rw [after_eq, withScopes, (ScopeChain.tail_of_declare bound).1]
    exact declares.outer_eq
  · rw [after_eq]
    exact (ScopeChain.tail_of_declare bound).2
  · rw [after_eq]
    exact declares.function_eq
  · intro parameter member
    obtain member | member := List.mem_append.1 member
    · exact declares.parameter_le parameter member
    · rw [List.mem_singleton] at member
      exact member ▸ declares.grows.extends'.decls_le
  · intro parameter member
    obtain member | member := List.mem_append.1 member
    · obtain ⟨other, other_eq⟩ := declares.parameter_eq parameter member
      exact ⟨other, (kind_eq _ (declares.index_lt parameter member)).trans other_eq⟩
    · rw [List.mem_singleton] at member
      exact ⟨type, member ▸ added⟩
  · refine List.nodup_append.2 ⟨declares.nodup, List.nodup_singleton _, ?_⟩
    rintro parameter member other other_mem rfl
    rw [List.mem_singleton] at other_mem
    have earlier := declares.index_lt parameter member
    rw [other_mem] at earlier
    exact absurd earlier (Nat.lt_irrefl _)

end DeclaresParameters

section Functions

variable {globals parameters : List DeclId} {before declared opened bodied : Analysis}
  {name : String} {location : Location} {result : Ty} {scopes : ScopeChain} {id : DeclId}

/-- A function whose parameters have been declared is opened at the top. -/
theorem AtTop.inBody (atTop : AtTop globals before)
    (declares : DeclaresParameters before parameters declared)
    (id_eq : id = ⟨declared.ast.decls.size⟩)
    (bound : before.scopes.declare name id = .ok scopes)
    (opened_eq : opened = ((declared.withDecl ⟨name, location, .function (.function result
      (typesOf declared.ast parameters)) parameters none⟩).withScopes scopes).withFunction id) :
    InBody ⟨globals ++ [id], parameters, id⟩ opened := by
  have grows : Grows declared opened := opened_eq ▸ ((grows_withDecl declared rfl).trans
    (grows_withScopes _ scopes)).trans (grows_withFunction _ id)
  have kind_eq : opened.ast.kindOf id = .function (.function result
      (typesOf declared.ast parameters)) parameters none := by
    rw [opened_eq, id_eq, Ast.kindOf]
    exact congrArg Decl.kind (Ast.decl_addDecl_self declared.ast _)
  have extends' := declares.grows.extends'.trans grows.extends'
  have scopes_eq : opened.scopes = scopes := by rw [opened_eq]; rfl
  refine ⟨grows.sound (declares.grows.sound atTop.sound), by rw [opened_eq]; rfl,
    ⟨result, _, kind_eq⟩, ?_, ?_, ?_, ?_⟩
  · intro parameter member
    obtain ⟨type, parameter_eq⟩ := declares.parameter_eq parameter member
    exact ⟨type, grows.extends'.type?_eq (by rw [parameter_eq, DeclKind.type?])⟩
  · rw [scopes_eq]
    exact (ScopeChain.tail_of_declare bound).2
  · intro other declaration found
    rw [scopes_eq, ScopeChain.lookup_of_declare bound] at found
    split at found
    · cases found
      exact .inl (List.mem_append_right _ (List.mem_singleton.2 rfl))
    · exact .inl (List.mem_append_left _ (atTop.mem_of_lookup found))
  · intro other declaration found
    rw [scopes_eq, ScopeChain.lookup_of_declare bound] at found
    split at found
    · cases found
      exact ⟨_, by rw [kind_eq, DeclKind.type?]⟩
    · obtain ⟨type, typed⟩ := atTop.namesTyped other declaration found
      exact ⟨type, extends'.type?_eq typed⟩

/-- A function at the top gets its body. -/
theorem AtTop.defines (atTop : AtTop globals before)
    (declares : DeclaresParameters before parameters declared)
    (id_eq : id = ⟨declared.ast.decls.size⟩)
    (bound : before.scopes.declare name id = .ok scopes)
    (opened_eq : opened = ((declared.withDecl ⟨name, location, .function (.function result
      (typesOf declared.ast parameters)) parameters none⟩).withScopes scopes).withFunction id)
    {body : StmtId}
    (advances : Advances ⟨globals ++ [id], parameters, id⟩ opened [body] bodied)
    (scopes_eq : bodied.scopes = opened.scopes) {type : Ty} {others : List DeclId}
    (kind_eq : bodied.ast.kindOf id = .function type others none) :
    AtTop (globals ++ [id])
      ((bodied.withKind id (.function type others (some body))).withFunction none) := by
  have grows : Grows declared opened := opened_eq ▸ ((grows_withDecl declared rfl).trans
    (grows_withScopes _ scopes)).trans (grows_withFunction _ id)
  have opened_decl : opened.ast.decl id = ⟨name, location, .function (.function result
      (typesOf declared.ast parameters)) parameters none⟩ := by
    rw [opened_eq, id_eq]
    exact Ast.decl_addDecl_self declared.ast _
  have opened_size : opened.ast.decls.size = id.index + 1 := by
    rw [opened_eq, id_eq]
    simp [withFunction, withScopes, withDecl, Ast.addDecl]
  have opened_lt : id.index < opened.ast.decls.size := opened_size ▸ Nat.lt_succ_self _
  have bodied_lt := opened_lt.trans_le advances.proceeds.extends'.decls_le
  rw [advances.proceeds.kind_eq id opened_lt, Ast.kindOf, opened_decl] at kind_eq
  cases kind_eq
  have bodied_kind : bodied.ast.kindOf id = .function (.function result
      (typesOf declared.ast parameters)) parameters none := by
    rw [advances.proceeds.kind_eq id opened_lt, Ast.kindOf, opened_decl]
  set complete : DeclKind := .function (.function result (typesOf declared.ast parameters))
    parameters (some body)
  have completes : (bodied.ast.kindOf id).Completes complete :=
    bodied_kind ▸ .body _ parameters body
  have defined : bodied.ast.Extends (bodied.ast.setDeclKind id complete) :=
    .setDeclKind bodied_lt completes
  have extends' := (grows.extends'.trans advances.proceeds.extends').trans defined
  have kind_eq : (bodied.ast.setDeclKind id complete).kindOf id = complete := by
    rw [Ast.kindOf, Ast.decl_setDeclKind _ _ _ _ bodied_lt, if_pos rfl]
  have name_eq : ((bodied.ast.setDeclKind id complete).decl id).name = name := by
    rw [(advances.proceeds.extends'.trans defined).name_eq id opened_lt, opened_decl]
  have newer : before.ast.decls.size ≤ id.index := by
    rw [id_eq]
    exact declares.grows.extends'.decls_le
  refine atTop.append (declares.grows.extends'.trans extends') ?_ rfl ?_ newer ?_
  · refine advances.inBody.sound.setDeclKind bodied_lt completes fun other found => ?_
    cases found
  · rw [withFunction, withKind]
    dsimp only
    rw [name_eq, scopes_eq, opened_eq]
    exact bound
  · have types_eq : typesOf (bodied.ast.setDeclKind id complete) parameters =
        typesOf declared.ast parameters :=
      Ast.typesOf_eq_of_extends extends' declares.parameter_eq
    have kind_eq' : (bodied.ast.setDeclKind id complete).kindOf id = .function (.function result
        (typesOf (bodied.ast.setDeclKind id complete) parameters)) parameters (some body) := by
      rw [kind_eq, types_eq]
    have inScope := advances.inScope.extends' defined
    rw [opened_size] at inScope
    refine .function kind_eq' ?_ declares.nodup inScope (Nat.le_of_eq ?_) ?_
      ((advances.returns body (List.mem_singleton.2 rfl)).extends' defined)
    · intro parameter member
      obtain ⟨type, parameter_eq⟩ := declares.parameter_eq parameter member
      have completes := extends'.completes parameter (declares.index_lt parameter member)
      rw [parameter_eq] at completes
      exact ⟨type, completes.eq_of_parameter⟩
    · simp [withFunction, withKind, Ast.setDeclKind]
    · intro other member
      obtain member | member := List.mem_append.1 member
      · exact .inl ((atTop.index_lt other member).le.trans newer)
      · rw [List.mem_singleton] at member
        exact .inl (member ▸ le_rfl)

end Functions

/-- Declarations at the top make a coherent program. -/
theorem AtTop.coherent {globals : List DeclId} {analysis : Analysis} (atTop : AtTop globals analysis)
    (title : String) {closed : Analysis} (closed_eq : closed.ast = analysis.ast) :
    ((closed.withDecl ⟨title, .unknown, .program globals⟩).program
      ⟨closed.ast.decls.size⟩).Coherent := by
  set program := (closed.withDecl ⟨title, .unknown, .program globals⟩).program
    ⟨closed.ast.decls.size⟩
  have declarations_eq : program.declarations = globals := by
    have root := Ast.decl_addDecl_self closed.ast ⟨title, .unknown, .program globals⟩
    rw [Program.declarations, show program.ast.decl program.root = _ from root]
  have extends' : analysis.ast.Extends program.ast :=
    closed_eq ▸ Ast.Extends.addDecl closed.ast ⟨title, .unknown, .program globals⟩
  refine ⟨?_, ?_, ?_⟩
  · exact (closed_eq ▸ atTop.sound : closed.ast.Sound).addDecl rfl
  · rw [declarations_eq]
    have names_eq : (globals.map fun id => (program.ast.decl id).name) =
        globals.map fun id => (analysis.ast.decl id).name :=
      List.map_congr_left fun id member => extends'.name_eq id (atTop.index_lt id member)
    rw [names_eq]
    exact atTop.names_nodup
  · rw [declarations_eq]
    intro id member
    exact (atTop.topLevel id member).extends' extends' (fun _ member => member)
      (fun _ member => .inl member) extends'.decls_le

end Analysis

end Minilang
