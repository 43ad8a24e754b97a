import Mathlib.Data.List.Find
import Minilang.Proofs.Parsing.JoinedPrograms

/-!
# Compiling joined texts

Nothing of a text is left behind where it ends: a second text is compiled behind it as if it stood alone,
unless it declares a name once more.
-/

namespace Minilang

/-! ## Programs within others -/

namespace Ast

/-- The declarations at the top of a whole program. -/
theorem declarations_whole (ast : Ast) (name : String) (ids : List DeclId) :
    (ast.whole name ids).declarations = ids := by
  simp [whole, Program.declarations]

/-- What has a type in a whole program has been declared before it. -/
theorem index_lt_of_whole {ast : Ast} {name : String} {ids : List DeclId} {id : DeclId} {type : Ty}
    (typed : ((ast.whole name ids).ast.kindOf id).type? = some type) :
    id.index < ast.decls.size := by
  rw [whole, kindOf_addDecl] at typed
  split at typed
  · next bound => exact bound
  · split at typed <;> cases typed

end Ast

namespace Correspondence

variable {base ast joined : Ast} {bound : List (String × DeclId)} {lines : Nat} {name : String}
  {ids others : List DeclId}

/-- What is there before is found in front of what has been joined to it. -/
theorem Asts.programs_identity (asts : (behind base bound lines).Asts ast joined) :
    identity.Programs False (base.whole name ids)
      (joined.whole name (ids ++ others.map (behind base bound lines).decl)) := by
  have exprs_eq : joined.exprs.size = base.exprs.size + ast.exprs.size := asts.exprs_size
  have stmts_eq : joined.stmts.size = base.stmts.size + ast.stmts.size := asts.stmts_size
  have decls_eq : joined.decls.size = base.decls.size + ast.decls.size := asts.decls_size
  refine ⟨exprs_eq ▸ Nat.le_add_right _ _, stmts_eq ▸ Nat.le_add_right _ _, False.elim, ?_, ?_, ?_,
    False.elim, ?_⟩
  · intro id bound
    rw [expr_identity, id_eq, show (joined.whole _ _).ast.expr id = base.expr id from
      asts.keeps.expr_eq id bound]
    exact exprs_identity _
  · intro id bound
    rw [stmt_identity, id_eq, show (joined.whole _ _).ast.stmt id = base.stmt id from
      asts.keeps.stmt_eq id bound]
    exact stmts_identity _
  · intro id type typed
    have bound := Ast.index_lt_of_whole typed
    rw [decl_identity, id_eq, Ast.whole, Ast.whole, Ast.decl_addDecl_of_lt bound,
      Ast.decl_addDecl_of_lt (bound.trans_le (decls_eq ▸ Nat.le_add_right _ _)),
      asts.keeps.decl_eq id bound]
    exact decls_identity _
  · intro id type typed
    have bound := Ast.index_lt_of_whole typed
    rw [decl_identity, id_eq, Ast.declarations_whole, Ast.declarations_whole, List.mem_append]
    refine or_iff_left fun member => ?_
    obtain ⟨other, -, rfl⟩ := List.mem_map.1 member
    exact absurd bound (Nat.not_lt_of_le (Nat.le_add_right _ _))

/-- What has been joined to a program is found behind it. -/
theorem Asts.programs_behind (asts : (behind base bound lines).Asts ast joined)
    (ids_lt : ∀ id ∈ ids, id.index < base.decls.size) :
    (behind base bound lines).Programs False (ast.whole name others)
      (joined.whole name (ids ++ others.map (behind base bound lines).decl)) := by
  refine ⟨asts.exprs_size ▸ Nat.le_add_left _ _, asts.stmts_size ▸ Nat.le_add_left _ _, False.elim,
    asts.expr, asts.stmt, ?_, False.elim, ?_⟩
  · intro id type typed
    have bound := Ast.index_lt_of_whole typed
    rw [Ast.whole, Ast.whole, Ast.decl_addDecl_of_lt bound, Ast.decl_addDecl_of_lt]
    · exact asts.decl id bound
    · rw [asts.decls_size]
      exact Nat.add_lt_add_left bound _
  · intro id type typed
    rw [Ast.declarations_whole, Ast.declarations_whole, List.mem_append]
    refine (or_iff_right fun member => ?_).trans (List.mem_map_of_injective ?_)
    · exact absurd (ids_lt _ member) (Nat.not_lt_of_le (Nat.le_add_right _ _))
    · exact fun id other same => decl_inj.1 same

end Correspondence

namespace Lowering

variable {correspondence : Correspondence} {program joined : Program} {module : Ir.Module}

/-- A program that is found in another one under the same names is lowered to the same functions and global
objects there. -/
theorem lower_part (programs : correspondence.Programs False program joined)
    (coherent : program.Coherent) (names_eq : correspondence.rename = fun name => name)
    (lowered : lower program = .ok module) :
    lowerFunctions joined ((program.declarations.map correspondence.decl).filter fun id =>
        (joined.ast.decl id).kind.isFunction) = .ok module.functions ∧
      ((program.declarations.map correspondence.decl).map joined.ast.decl).filterMap lowerGlobal? =
        module.globals := by
  have functions := lowerFunctions_mirrored programs coherent
    (fun id (member : id ∈ program.declarations.filter fun id =>
      (program.ast.decl id).kind.isFunction) => List.mem_filter.1 member)
  rw [filter_isFunction_mirrored programs coherent fun _ member => member,
    lowerGlobals_mirrored programs coherent fun _ member => member, names_eq, Ir.Global.rename_id,
    List.map_id]
  rw [lower_eq coherent] at lowered
  cases run : lowerFunctions program
      (program.declarations.filter fun id => (program.ast.decl id).kind.isFunction) with
  | ok lowerings =>
      rw [run] at lowered functions
      simp only [names_eq, Ir.Function.rename_id, List.map_id] at functions
      cases lowered
      exact ⟨functions, rfl⟩
  | error error =>
      rw [run] at lowered
      cases lowered

theorem lowerFunctions_append {ids others : List DeclId} {functions otherFunctions : List Ir.Function}
    (run : lowerFunctions program ids = .ok functions)
    (otherRun : lowerFunctions program others = .ok otherFunctions) :
    lowerFunctions program (ids ++ others) = .ok (functions ++ otherFunctions) :=
  lowerFunctions_of_forall₂
    (List.rel_append (forall₂_of_lowerFunctions run) (forall₂_of_lowerFunctions otherRun))

/-- A program with another one behind it is lowered to the module of the one and, behind it, that of the
other. -/
theorem lower_joined {base ast joined : Ast} {bound : List (String × DeclId)} {lines : Nat} {name : String}
    {ids others : List DeclId} {left right : Ir.Module}
    (asts : (Correspondence.behind base bound lines).Asts ast joined)
    (ids_lt : ∀ id ∈ ids, id.index < base.decls.size)
    (coherent : (base.whole name ids).Coherent) (otherCoherent : (ast.whole name others).Coherent)
    (joinedCoherent : (joined.whole name
      (ids ++ others.map (Correspondence.behind base bound lines).decl)).Coherent)
    (lowered : lower (base.whole name ids) = .ok left)
    (otherLowered : lower (ast.whole name others) = .ok right) :
    lower (joined.whole name (ids ++ others.map (Correspondence.behind base bound lines).decl)) =
      .ok ⟨name, left.globals ++ right.globals, left.functions ++ right.functions⟩ := by
  have programs : Correspondence.identity.Programs False (base.whole name ids) (joined.whole name
      (ids ++ others.map (Correspondence.behind base bound lines).decl)) := asts.programs_identity
  have front := lower_part programs coherent rfl lowered
  have back := lower_part (asts.programs_behind ids_lt) otherCoherent rfl otherLowered
  rw [Correspondence.decl_identity, List.map_id, Ast.declarations_whole] at front
  rw [Ast.declarations_whole] at back
  rw [lower_eq joinedCoherent, Ast.declarations_whole, List.filter_append,
    lowerFunctions_append front.1 back.1, List.map_append, List.filterMap_append, front.2, back.2,
    Ast.whole, Ast.decl_addDecl_self]
  rfl

end Lowering

/-- The names that are declared at the top of a program. -/
def Program.names (program : Program) : List String :=
  program.declarations.map fun id => (program.ast.decl id).name

namespace Ast

variable {ast : Ast} {name : String} {ids : List DeclId}

/-- The declarations at the top of a whole program are what they were before it. -/
theorem decl_whole (ids_lt : ∀ id ∈ ids, id.index < ast.decls.size) :
    ∀ id ∈ ids, (ast.whole name ids).ast.decl id = ast.decl id :=
  fun id member => decl_addDecl_of_lt (ids_lt id member) _

theorem names_whole (ids_lt : ∀ id ∈ ids, id.index < ast.decls.size) :
    (ast.whole name ids).names = ids.map fun id => (ast.decl id).name := by
  rw [Program.names, declarations_whole]
  exact List.map_congr_left fun id member => congrArg Decl.name (decl_whole ids_lt id member)

end Ast

/-- A declaration clashes with a program if its name is declared there. -/
theorem Parser.clashes_behind (base ast : Ast) (ids : List DeclId) (lines : Nat) (id : DeclId) :
    Clashes (.behind base (ids.map fun id => ((base.decl id).name, id)).reverse lines) ast id =
      decide ((ast.decl id).name ∈ ids.map fun id => (base.decl id).name) := by
  rw [Clashes, Bool.eq_iff_iff, decide_eq_true_iff, List.lookup_isSome_iff]
  constructor
  · rintro ⟨_, member, same⟩
    obtain ⟨other, other_mem, rfl⟩ := List.mem_map.1 (List.mem_reverse.1 member)
    exact List.mem_map.2 ⟨other, other_mem, (beq_iff_eq.1 same).symm⟩
  · intro member
    obtain ⟨other, other_mem, same⟩ := List.mem_map.1 member
    exact ⟨_, List.mem_reverse.2 (List.mem_map_of_mem other_mem), beq_iff_eq.2 same.symm⟩

/-- What is compiled has been parsed and lowered. -/
theorem exists_of_compile {source : Source} {module : Ir.Module}
    (compiled : compile source = .ok module) :
    ∃ program, parse source = .ok program ∧ lower program = .ok module := by
  rw [compile] at compiled
  cases parsed : parse source with
  | error error =>
      rw [parsed] at compiled
      cases compiled
  | ok program =>
      rw [parsed] at compiled
      exact ⟨program, rfl, compiled⟩

/-- Two texts with a newline between them are compiled to the module of the one and, behind it, that of the
other, each as it is alone. If the second text declares a name of the first one at its top, the first such
declaration is rejected, at its name. -/
theorem compile_append {name first second : String} {left right : Ir.Module}
    (leftCompiled : compile ⟨name, first⟩ = .ok left)
    (rightCompiled : compile ⟨name, second⟩ = .ok right) :
    ∃ program other, parse ⟨name, first⟩ = .ok program ∧ parse ⟨name, second⟩ = .ok other ∧
      match other.declarations.find? fun id => (other.ast.decl id).name ∈ program.names with
      | none => compile ⟨name, first ++ "\n" ++ second⟩ =
          .ok ⟨name, left.globals ++ right.globals, left.functions ++ right.functions⟩
      | some id => compile ⟨name, first ++ "\n" ++ second⟩ = .error
          (.semantic ((other.ast.decl id).location.down (first.toList.count '\n' + 1))
            (.redeclaration (other.ast.decl id).name)) := by
  obtain ⟨program, parsed, lowered⟩ := exists_of_compile leftCompiled
  obtain ⟨other, otherParsed, otherLowered⟩ := exists_of_compile rightCompiled
  refine ⟨program, other, parsed, otherParsed, ?_⟩
  have complete := complete_of_parse parsed
  have otherComplete := complete_of_parse otherParsed
  have coherent := parse_coherent parsed
  have otherCoherent := parse_coherent otherParsed
  obtain ⟨ids, middle, run, atTop, rfl⟩ := Parser.declarations_of_parse parsed
  obtain ⟨others, after, otherRun, otherTop, rfl⟩ := Parser.declarations_of_parse otherParsed
  have ids_lt := atTop.index_lt
  have others_lt := otherTop.index_lt
  have outcome := Parser.runDeclarations_followedBy (first.toList.count '\n' + 1)
    (TokenStream.readBy_ofSource _).proper complete (TokenStream.readBy_ofSource _).proper otherComplete
    run atTop otherRun rfl
  rw [← TokenStream.ofSource_append complete otherComplete] at outcome
  have clashes_eq :
      (others.find? fun id => decide (((after.analysis.ast.whole name others).ast.decl id).name ∈
        (middle.analysis.ast.whole name ids).names)) =
      others.find? (Parser.Clashes (.behind middle.analysis.ast
        (ids.map fun id => ((middle.analysis.ast.decl id).name, id)).reverse
        (first.toList.count '\n' + 1)) after.analysis.ast) := by
    refine List.find?_congr fun id member => ?_
    rw [Ast.decl_whole others_lt id member, Ast.names_whole ids_lt, Parser.clashes_behind]
  rw [Ast.declarations_whole, clashes_eq]
  generalize clash : others.find? _ = clashing at outcome ⊢
  cases clashing with
  | none =>
      obtain ⟨joined, joinedRun, asts⟩ := outcome
      have joinedParsed := (Parser.parse_of_declarations joinedRun).2
      have joinedLowered := Lowering.lower_joined asts ids_lt coherent otherCoherent
        (parse_coherent joinedParsed) lowered otherLowered
      dsimp only
      rw [compile, joinedParsed]
      exact joinedLowered
  | some id =>
      have joinedParsed := Parser.parse_of_declarations_error outcome
      dsimp only
      rw [compile, joinedParsed, Ast.decl_whole others_lt id (List.mem_of_find?_eq_some clash)]
      rfl

/-- A variable, and a function that counts it up. -/
def counter : Source := ⟨"t", "var n: int = 1; # counts
def next(by: int) -> int { n = n + by; return n; }"⟩

/-- A constant, and a function in which it bounds a loop. -/
def stepper : Source := ⟨"t", "let limit: int = 3; var step: int = 0;
def run(n: int) -> int { while (n < limit) { n = n + step; } return n; }"⟩

theorem compile_append_of_counter :
    (∃ left right, compile counter = .ok left ∧ compile stepper = .ok right ∧
      left.functions.length = 1 ∧ right.functions.length = 1 ∧
      compile ⟨"t", counter.text ++ "\n" ++ stepper.text⟩ =
        .ok ⟨"t", left.globals ++ right.globals, left.functions ++ right.functions⟩) ∧
    compile ⟨"t", counter.text ++ "\n" ++ counter.text⟩ =
      .error (.semantic (.inFile "t" ⟨3, 5⟩) (.redeclaration "n")) := by
  have compiles : (compile counter).toOption.any (fun module => module.functions.length = 1) = true ∧
      (compile stepper).toOption.any (fun module => module.functions.length = 1) = true := by
    decide +kernel
  have unclashed : (do
      let program ← parse counter
      let other ← parse stepper
      return other.declarations.find? fun id => (other.ast.decl id).name ∈ program.names) =
        .ok none := by
    decide +kernel
  have clashes : (do
      let program ← parse counter
      let id := program.declarations.find? fun id => (program.ast.decl id).name ∈ program.names
      return id.map fun id => ((program.ast.decl id).name, (program.ast.decl id).location)) =
        .ok (some ("n", .inFile "t" ⟨1, 5⟩)) := by
    decide +kernel
  have lines : counter.text.toList.count '\n' = 1 := by decide +kernel
  have module_of {source : Source}
      (compiles : (compile source).toOption.any (fun module => module.functions.length = 1) = true) :
      ∃ module, compile source = .ok module ∧ module.functions.length = 1 := by
    cases compiled : compile source with
    | error error =>
        rw [compiled] at compiles
        cases compiles
    | ok module =>
        rw [compiled] at compiles
        exact ⟨module, rfl, of_decide_eq_true compiles⟩
  obtain ⟨left, compiled, left_length⟩ := module_of compiles.1
  obtain ⟨right, otherCompiled, right_length⟩ := module_of compiles.2
  refine ⟨⟨left, right, compiled, otherCompiled, left_length, right_length, ?_⟩, ?_⟩
  · obtain ⟨program, other, parsed, otherParsed, outcome⟩ := compile_append compiled otherCompiled
    rw [counter, parsed, stepper, otherParsed] at unclashed
    rw [Except.ok.inj unclashed] at outcome
    exact outcome
  · obtain ⟨program, other, parsed, otherParsed, outcome⟩ := compile_append compiled compiled
    cases parsed.symm.trans otherParsed
    rw [counter, parsed] at clashes
    obtain ⟨id, found, same⟩ := Option.map_eq_some_iff.1 (Except.ok.inj clashes)
    obtain ⟨name_eq, location_eq⟩ := Prod.mk.inj same
    rw [found] at outcome
    dsimp only [counter] at outcome lines
    rw [name_eq, location_eq, lines] at outcome
    exact outcome

end Minilang
