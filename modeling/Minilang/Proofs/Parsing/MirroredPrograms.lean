import Minilang.Proofs.Lowering.MirroredForms
import Minilang.Proofs.Parsing.MirroredForms
import Minilang.Proofs.Parsing.ProgramRecognition

/-!
# Mirrored programs

Two streams of tokens that belong together, read from their starts, are parsed into programs that correspond,
or are rejected alike.
-/

namespace Minilang

namespace Correspondence

variable {correspondence : Correspondence}

/-- Whether nothing at all is there before. -/
structure Whole (correspondence : Correspondence) : Prop where
  /-- There are no nodes. -/
  base_eq : correspondence.base = .empty
  /-- No names are bound. -/
  bound_eq : correspondence.bound = []

/-- There are no expressions. -/
theorem Whole.exprs_eq (whole : correspondence.Whole) : correspondence.exprs = 0 := by
  rw [exprs, whole.base_eq]
  rfl

/-- There are no statements. -/
theorem Whole.stmts_eq (whole : correspondence.Whole) : correspondence.stmts = 0 := by
  rw [stmts, whole.base_eq]
  rfl

/-- There are no declarations. -/
theorem Whole.decls_eq (whole : correspondence.Whole) : correspondence.decls = 0 := by
  rw [decls, whole.base_eq]
  rfl

theorem Whole.exact (whole : correspondence.Whole) : correspondence.Exact :=
  ⟨whole.exprs_eq, whole.bound_eq⟩

/-- Nothing corresponds to nothing. -/
theorem Whole.initial (whole : correspondence.Whole) :
    correspondence.Analyses 0 .initial .initial := by
  refine ⟨⟨?_, ?_, ?_, ?_, ?_, ?_, ?_, ?_⟩, .empty, rfl, rfl⟩
  · rw [whole.exprs_eq]
    rfl
  · rw [whole.stmts_eq]
    rfl
  · rw [whole.decls_eq]
    rfl
  · exact fun id bound => absurd bound (Nat.not_lt_zero _)
  · exact fun id bound => absurd bound (Nat.not_lt_zero _)
  · exact fun id bound => absurd bound (Nat.not_lt_zero _)
  · rw [whole.base_eq]
    exact .refl _
  · intro id parameter member
    cases member

/-- Streams that belong together are of the same length. -/
theorem Streams.length_eq {tokens other : TokenStream}
    (streams : correspondence.Streams tokens other) : other.length = tokens.length := by
  induction streams with
  | token _ _ _ induction => exact congrArg (· + 1) induction
  | finished => rfl
  | failed => rfl

/-- Where the end of input can be seen, both texts have been read to their ends. -/
theorem Streams.fault?_eq_none {tokens other : TokenStream}
    (streams : correspondence.Streams tokens other) {last : Token}
    (found : tokens.lookahead 0 = .ok last) (end_reached : last.kind = .endOfInput) :
    correspondence.fault? = none := by
  cases streams with
  | token _ more _ =>
      cases found
      exact absurd end_reached more
  | finished complete _ => exact complete
  | failed => cases found

end Correspondence

namespace Parser

variable {correspondence : Correspondence} {before : ParserState}

/-- The declarations of a whole program. -/
def globals (fuel : Nat) : Parser (List DeclId) := do
  check Analysis.enterGlobalScope
  let declarations ← declarations (declaration fuel) fuel
  check Analysis.leaveScope
  return declarations

theorem program_eq_globals (name : String) (fuel : Nat) :
    program name fuel = (do check (Analysis.addProgram name (← globals fuel))) := by
  simp only [program, globals, bind_assoc, pure_bind]

theorem globals_mirrors (unbound : correspondence.bound = []) (fuel : Nat) :
    Mirrors correspondence 0 0 (globals fuel) (globals fuel) before
      fun after ids others =>
        (∀ id ∈ ids, id.index < after.ast.decls.size) ∧ others = ids.map correspondence.decl := by
  have free (token : Token) : Analysis.Free correspondence 1 token :=
    .inr fun name _ => by rw [unbound, List.lookup_nil]
  refine (Mirrors.check (Analysis.enterGlobalScope_mirrors unbound)).bind fun _ _ _ _ _ => ?_
  refine (declarations_mirrors
    (fun _ => declaration_mirrors (Nat.zero_lt_succ 0) (fun token _ => free token) fuel) fuel).bind ?_
  rintro middle ids _ - ⟨ids_lt, rfl⟩
  refine (Mirrors.check Analysis.leaveScope_mirrors).bind fun _ _ _ precedes _ => ?_
  exact .pure ⟨fun id member => (ids_lt id member).trans_le precedes.decls_le, rfl⟩

end Parser

namespace Ast

/-- The declaration of a whole program is the last one. -/
theorem kindOf_addDecl (ast : Ast) (added : Decl) (id : DeclId) :
    (ast.addDecl added).2.kindOf id = if id.index < ast.decls.size then ast.kindOf id
      else if id = (ast.addDecl added).1 then added.kind else .program [] := by
  split
  · next earlier => rw [kindOf, decl_addDecl_of_lt earlier, kindOf]
  · next later =>
    split
    · next same =>
      rw [same, kindOf, decl_addDecl_self]
    · next different =>
      have beyond : ast.decls.size + 1 ≤ id.index := by
        refine Nat.lt_of_le_of_ne (Nat.le_of_not_lt later) fun same => different ?_
        rw [addDecl, same]
      rw [kindOf, decl, addDecl, Array.getElem?_eq_none (by rwa [Array.size_push])]
      rfl

end Ast

namespace Correspondence

variable {correspondence : Correspondence} {ast other : Ast}

/-- The programs that consist of all nodes that have been made correspond. -/
theorem Whole.programs (whole : correspondence.Whole) (asts : correspondence.Asts ast other)
    (name otherName : String) (ids : List DeclId) :
    correspondence.Programs True
      ⟨(ast.addDecl ⟨name, .unknown, .program ids⟩).2,
        (ast.addDecl ⟨name, .unknown, .program ids⟩).1⟩
      ⟨(other.addDecl ⟨otherName, .unknown, .program (ids.map correspondence.decl)⟩).2,
        (other.addDecl ⟨otherName, .unknown, .program (ids.map correspondence.decl)⟩).1⟩ := by
  have exprs_eq : other.exprs.size = ast.exprs.size := by
    rw [asts.exprs_size, whole.exprs_eq, Nat.zero_add]
  have stmts_eq : other.stmts.size = ast.stmts.size := by
    rw [asts.stmts_size, whole.stmts_eq, Nat.zero_add]
  have decls_eq : other.decls.size = ast.decls.size := by
    rw [asts.decls_size, whole.decls_eq, Nat.zero_add]
  have index_eq (id : DeclId) : (correspondence.decl id).index = id.index := by
    rw [Correspondence.decl, whole.decls_eq, Nat.zero_add]
  have earlier {id : DeclId} {type : Ty}
      (typed : ((ast.addDecl ⟨name, .unknown, .program ids⟩).2.kindOf id).type? = some type) :
      id.index < ast.decls.size := by
    rw [Ast.kindOf_addDecl] at typed
    split at typed
    · next bound => exact bound
    · split at typed <;> cases typed
  refine ⟨exprs_eq.ge, stmts_eq.ge, fun _ => ⟨exprs_eq, stmts_eq⟩, asts.expr, asts.stmt, ?_, ?_, ?_⟩
  · intro id type typed
    have bound := earlier typed
    rw [Ast.decl_addDecl_of_lt bound, Ast.decl_addDecl_of_lt]
    · exact asts.decl id bound
    · rwa [index_eq, decls_eq]
  · intro _ id
    have last_iff : correspondence.decl id = ⟨other.decls.size⟩ ↔ id = ⟨ast.decls.size⟩ := by
      rw [decls_eq, ← @decl_inj correspondence id, Correspondence.decl, Correspondence.decl,
        whole.decls_eq, Nat.zero_add, Nat.zero_add]
    rw [Ast.kindOf_addDecl, Ast.kindOf_addDecl, index_eq, decls_eq]
    split
    · exact asts.kindOf_eq id
    · rw [Ast.addDecl, Ast.addDecl]
      by_cases last : id = ⟨ast.decls.size⟩
      · rw [if_pos last, if_pos (last_iff.2 last)]
        rfl
      · rw [if_neg last, if_neg (mt last_iff.1 last)]
        rfl
  · intro id _ _
    simp [Program.declarations, Ast.decl_addDecl_self]

end Correspondence

variable {correspondence : Correspondence} {tokens other : TokenStream}

/-- Streams that belong together are parsed into programs that correspond, or are rejected alike. -/
theorem parseStream_mirrored (whole : correspondence.Whole)
    (streams : correspondence.Streams tokens other) (name otherName : String) :
    match parseStream name tokens with
    | .ok program => correspondence.fault? = none ∧ ∃ otherProgram,
        parseStream otherName other = .ok otherProgram ∧
          correspondence.Programs True program otherProgram ∧
          otherProgram.declarations = program.declarations.map correspondence.decl
    | .error error => ∃ otherError, parseStream otherName other = .error otherError ∧
        correspondence.Diagnostics error otherError := by
  have outcome := @Parser.globals_mirrors correspondence ⟨tokens, .initial⟩ whole.bound_eq
    (tokens.length + 1) ⟨other, .initial⟩ ⟨streams, whole.initial⟩
  rw [parseStream, parseStream, streams.length_eq]
  have program_run {name : String} {fuel : Nat} {tokens : TokenStream} {ids : List DeclId}
      {after : ParserState}
      (run : (Parser.globals fuel).run ⟨tokens, .initial⟩ = .ok (ids, after)) :
      (Parser.program name fuel).run ⟨tokens, .initial⟩ =
        .ok ((after.analysis.ast.addDecl ⟨name, .unknown, .program ids⟩).1,
          ⟨after.tokens, { after.analysis with
            ast := (after.analysis.ast.addDecl ⟨name, .unknown, .program ids⟩).2 }⟩) := by
    rw [Parser.program_eq_globals, Parser.run_bind, run]
    rfl
  have program_failed {name : String} {fuel : Nat} {tokens : TokenStream} {error : Diagnostic}
      (run : (Parser.globals fuel).run ⟨tokens, .initial⟩ = .error error) :
      (Parser.program name fuel).run ⟨tokens, .initial⟩ = .error error := by
    rw [Parser.program_eq_globals, Parser.run_bind, run]
  cases run : (Parser.globals (tokens.length + 1)).run ⟨tokens, .initial⟩ with
  | ok result =>
      obtain ⟨ids, after⟩ := result
      rw [run] at outcome
      obtain ⟨_, otherAfter, otherRun, -, states, -, rfl⟩ := outcome
      rw [program_run run, program_run otherRun]
      obtain ⟨last, found, end_reached⟩ := Parser.program_end (@program_run name _ _ _ _ run)
      refine ⟨states.streams.fault?_eq_none found end_reached, _, rfl,
        whole.programs states.analyses.asts name otherName ids, ?_⟩
      simp [Analysis.program, Program.declarations, Ast.decl_addDecl_self]
  | error error =>
      rw [run] at outcome
      obtain ⟨otherError, otherRun, diagnostics⟩ := outcome whole.exact
      rw [program_failed run, program_failed otherRun]
      exact ⟨otherError, rfl, diagnostics⟩

end Minilang
