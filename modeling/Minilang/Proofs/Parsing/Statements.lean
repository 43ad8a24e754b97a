import Minilang.Parsing.Statements
import Minilang.Proofs.Analysis.Bodies
import Minilang.Proofs.Parsing.Expressions

/-!
# Parsing objects and statements

Inside a function every statement is parsed into a scoped one, the declarations it makes are numbered from
those made before it, and the outer scopes are left alone.
-/

namespace Minilang.Parser

open ParserState
open Analysis (Gives InBody Proceeds DeclaresObject PutsGuarded Puts Advances)

variable {before : ParserState} {fuel : Nat}

/-- A parser of expressions whose names are those in scope. -/
theorem expression_parses_names (within : before.Within fuel)
    (typed : before.analysis.NamesTyped) :
    Parses (expressionWithin fuel) before fun id after =>
      before.NotBefore after ∧
        Gives before.analysis.ast.exprs.size before.analysis id after.analysis :=
  (expressionWithin_parses fuel before _ within typed le_rfl).mono
    fun _ _ yields => ⟨yields.1.later, yields.1.adds, yields.2⟩

/-- The declaration of an object up to its semicolon, with the object and the expression behind it. -/
def openObject (kind : ObjectKind) (fuel : Nat) : Parser (DeclId × ExprId) := do
  expectWord kind.keyword
  let name ← expectIdentifier
  expectSign .colon
  let type ← typeWithin fuel
  let declaration ← check (Analysis.declareObject kind name type)
  expectSign .assign
  let initializer ← expressionWithin fuel
  expectSign .semicolon
  return (declaration, initializer)

theorem object_eq_openObject (kind : ObjectKind) (fuel : Nat) :
    object kind fuel = (do
      let opened ← openObject kind fuel
      check (Analysis.defineObject opened.1 opened.2)) := by
  simp only [object, openObject, bind_assoc, pure_bind]

/-- An object is declared, and an expression behind it may name whatever is in scope. -/
theorem openObject_parses (kind : ObjectKind) (within : before.Within fuel)
    (typed : before.analysis.NamesTyped) :
    Parses (openObject kind fuel) before fun opened after =>
      before.Behind after ∧ ∃ name location type scopes declared,
        opened.1 = ⟨before.analysis.ast.decls.size⟩ ∧
        before.analysis.scopes.declare name opened.1 = .ok scopes ∧
        declared = (before.analysis.withDecl ⟨name, location, .object kind type none⟩).withScopes
          scopes ∧
        Gives declared.ast.exprs.size declared opened.2 after.analysis := by
  rw [openObject, parses_bind]
  refine (expectWord_parses within _).mono ?_
  rintro _ behindWord ⟨behind, same⟩
  have word_within := behind.notBefore.within within
  rw [parses_bind]
  refine (expectIdentifier_parses word_within).mono ?_
  rintro token behindName ⟨⟨name, spelled⟩, name_behind, name_same⟩
  have behind := behind.trans name_behind
  rw [parses_bind]
  refine (expectSign_parses (behind.notBefore.within within) .colon).mono ?_
  rintro _ behindColon ⟨colon_behind, colon_same⟩
  have behind := behind.trans colon_behind
  rw [parses_bind]
  refine (typeWithin_parses fuel behindColon (behind.notBefore.within within)).mono ?_
  rintro type behindType ⟨type_later, type_same⟩
  have behind := behind.trans_notBefore type_later
  have same : behindType.analysis = before.analysis :=
    type_same.trans (colon_same.trans (name_same.trans same))
  rw [parses_bind, parses_check, same]
  refine (Analysis.declareObject_ensures kind token type).mono ?_
    fun _ _ rejects => rejects.2 ⟨name, spelled⟩
  rintro id declared ⟨name', scopes, -, id_eq, bound, declared_eq⟩
  have declared_typed : declared.NamesTyped := by
    intro other declaration found
    rw [declared_eq, Analysis.withScopes, ScopeChain.lookup_of_declare bound] at found
    split at found
    · cases found
      refine ⟨type, ?_⟩
      rw [id_eq, declared_eq, Ast.kindOf]
      exact congrArg (fun decl : Decl => decl.kind.type?) (Ast.decl_addDecl_self _ _)
    · obtain ⟨otherType, otherTyped⟩ := typed other declaration found
      rw [declared_eq]
      exact ⟨otherType, (Ast.Extends.addDecl _ _).type?_eq otherTyped⟩
  rw [parses_bind]
  have declared_behind : before.Behind (behindType.withAnalysis declared) := behind
  refine (expectSign_parses (declared_behind.notBefore.within within) .assign).mono ?_
  rintro _ behindAssign ⟨assign_behind, assign_same⟩
  have behind := declared_behind.trans assign_behind
  rw [parses_bind]
  refine (expression_parses_names (behind.notBefore.within within)
    (by rw [assign_same]; exact declared_typed)).mono ?_
  rintro initializer behindExpression ⟨expression_later, gives⟩
  have behind := behind.trans_notBefore expression_later
  rw [assign_same] at gives
  rw [parses_bind]
  refine (expectSign_parses (behind.notBefore.within within) .semicolon).mono ?_
  rintro _ behindSemicolon ⟨semicolon_behind, semicolon_same⟩
  rw [parses_pure, semicolon_same]
  exact ⟨behind.trans semicolon_behind, name', token.location, type, scopes, declared, id_eq, bound,
    declared_eq, gives⟩

/-- An object stays without an initializer until it is given one. -/
theorem kindOf_of_opened {before declared after : Analysis} {name : String} {location : Location}
    {kind : ObjectKind} {type : Ty} {scopes : ScopeChain} {first : Nat} {initializer : ExprId}
    (declared_eq : declared =
      (before.withDecl ⟨name, location, .object kind type none⟩).withScopes scopes)
    (gives : Gives first declared initializer after) :
    after.ast.kindOf ⟨before.ast.decls.size⟩ = .object kind type none := by
  rw [Ast.kindOf, Ast.decl, gives.1.decls_eq, declared_eq]
  exact congrArg Decl.kind (Ast.decl_addDecl_self _ _)

/-- An object is declared with an initializer that may name whatever is in scope. -/
theorem object_parses (kind : ObjectKind) (within : before.Within fuel)
    (typed : before.analysis.NamesTyped) :
    Parses (object kind fuel) before fun id after =>
      before.Behind after ∧ DeclaresObject kind before.analysis id after.analysis := by
  rw [object_eq_openObject, parses_bind]
  refine (openObject_parses kind within typed).mono ?_
  rintro ⟨_, initializer⟩ behindSemicolon ⟨behind, name, location, type, scopes, declared, rfl, bound,
    declared_eq, gives⟩
  have open_kind := kindOf_of_opened declared_eq gives
  rw [parses_check]
  refine (Analysis.defineObject_ensures _ gives.2).mono ?_
    fun _ _ fails => fails.2 ⟨kind, type, open_kind⟩
  rintro result after ⟨value, middle, kind', type', value_gives, open_kind', value_type, constant,
    rfl, rfl⟩
  cases open_kind.symm.trans open_kind'
  refine ⟨behind, Analysis.declaresObject_of_adds bound declared_eq (value_gives.trans gives.1)
    value_type fun isConstant atTop => constant isConstant ?_⟩
  rw [← atTop, value_gives.1.scopes_eq]

/-- A misplaced definition is never accepted. -/
theorem misplacedDefinition_parses (within : before.Within fuel) {token : Token}
    (found : before.tokens.lookahead 0 = .ok token) (more : token.kind ≠ .endOfInput)
    (expected : Expectation) {onResult : DeclId → ParserState → Prop} :
    Parses (misplacedDefinition expected) before onResult := by
  rw [misplacedDefinition, parses_bind]
  refine (next_parses within found more).mono ?_
  rintro _ behindWord ⟨-, behind, -⟩
  rw [parses_bind]
  refine (expectIdentifier_parses (behind.notBefore.within within)).mono ?_
  rintro _ behindName ⟨-, name_behind, -⟩
  exact unexpected_parses ((behind.trans name_behind).notBefore.within within) _

/-- A declaration inside a function is one of an object. -/
theorem localDeclaration_parses (within : before.Within fuel)
    (typed : before.analysis.NamesTyped) :
    Parses (localDeclaration fuel) before fun id after =>
      before.Behind after ∧ ∃ kind, DeclaresObject kind before.analysis id after.analysis := by
  have declares (kind : ObjectKind) :
      Parses (object kind fuel) before fun id after =>
        before.Behind after ∧ ∃ kind, DeclaresObject kind before.analysis id after.analysis :=
    (object_parses kind within typed).mono fun _ _ parsed => ⟨parsed.1, kind, parsed.2⟩
  rw [localDeclaration, parses_bind]
  refine (peek_parses within).mono ?_
  rintro kind state ⟨⟨token, found, spelled⟩, rfl⟩
  split
  · exact declares .var
  · exact declares .const
  · rw [parses_bind]
    refine (lookahead_parses within 2).mono ?_
    rintro third _ ⟨-, rfl⟩
    split
    · exact declares .value
    · exact misplacedDefinition_parses within found (by simp [spelled]) _
  · exact unexpected_parses within _

section Statements

variable {scope : FunctionScope} {nested : Parser StmtId}

/-- A parser of statements inside a function. -/
def ParsesStatement (scope : FunctionScope) (fuel : Nat) (parser : Parser StmtId) : Prop :=
  ∀ before : ParserState, before.Within fuel → InBody scope before.analysis →
    Parses parser before fun id after =>
      before.Behind after ∧ Advances scope before.analysis [id] after.analysis

/-- A guard is an expression in parentheses. -/
theorem guard_parses (within : before.Within fuel) (typed : before.analysis.NamesTyped) :
    Parses (guard fuel) before fun id after => before.Behind after ∧
      Gives before.analysis.ast.exprs.size before.analysis id after.analysis := by
  rw [guard, parses_bind]
  refine (expectSign_parses within .leftParen).mono ?_
  rintro _ behindParen ⟨behind, same⟩
  rw [parses_bind]
  refine (expression_parses_names (behind.notBefore.within within)
    (by rw [same]; exact typed)).mono ?_
  rintro id behindExpression ⟨later, gives⟩
  have behind := behind.trans_notBefore later
  rw [parses_bind]
  refine (expectSign_parses (behind.notBefore.within within) .rightParen).mono ?_
  rintro _ after ⟨close_behind, close_same⟩
  rw [same] at gives
  exact ⟨behind.trans close_behind, by rw [close_same]; exact gives⟩

/-- The statements of a block are parsed in a scope of their own, which is closed behind them. -/
theorem block_parses (nested_parses : ParsesStatement scope fuel nested)
    (within : before.Within (fuel + 1)) (inBody : InBody scope before.analysis) :
    Parses (block nested fuel) before fun id after =>
      before.Behind after ∧ Advances scope before.analysis [id] after.analysis ∧
        after.analysis.scopes = before.analysis.scopes := by
  rw [block, parses_bind]
  refine (expectSign_parses within .leftBrace).mono ?_
  rintro _ behindBrace ⟨behind, same⟩
  rw [parses_bind, parses_check, same]
  refine Analysis.enterBlockScope_ensures.mono ?_ fun _ _ external => external
  rintro _ entered rfl
  rw [parses_bind, parses_check]
  refine (Analysis.startBlock_ensures (inBody.push .block)).mono ?_ fun _ _ external => external
  rintro _ started ⟨started_inBody, started_proceeds, started_ast⟩
  have started_ast : started.ast = before.analysis.ast := started_ast
  have start_behind : before.Behind (behindBrace.withAnalysis started) := behind
  have start_within := start_behind.within within
  rw [parses_bind]
  have step (done : List StmtId) (state : ParserState) (state_within : state.Within fuel)
      (advances : Advances scope started done state.analysis) :
      Parses nested state fun id after =>
        state.Behind after ∧ Advances scope started (done ++ [id]) after.analysis :=
    (nested_parses state state_within advances.inBody).mono
      fun _ _ parsed => ⟨parsed.1, advances.append parsed.2⟩
  refine (manyUntil_parses (Advances scope started) [] .rightBrace le_rfl step
    start_within (.nil started_inBody)).mono ?_
  rintro statements behindStatements ⟨statements_behind, advances⟩
  rw [List.nil_append] at advances
  have behind := start_behind.trans statements_behind
  obtain ⟨inner_inBody, inner_proceeds, inScope, returns⟩ := advances
  have tail_eq : behindStatements.analysis.scopes.frames.tail = before.analysis.scopes.frames :=
    (inner_proceeds.outer_eq.trans started_proceeds.outer_eq).trans rfl
  have popped : ∃ frame, behindStatements.analysis.scopes.pop? =
      some (frame, before.analysis.scopes) := by
    cases frames : behindStatements.analysis.scopes.frames with
    | nil => exact absurd frames inner_inBody.frames_ne
    | cons frame outer =>
        rw [frames, List.tail_cons] at tail_eq
        exact ⟨frame, by rw [ScopeChain.pop?, frames, tail_eq]⟩
  obtain ⟨frame, popped⟩ := popped
  rw [parses_bind, parses_check]
  refine Analysis.leaveScope_ensures.mono ?_ fun _ _ rejects => rejects.2 ⟨_, _, popped⟩
  rintro _ left ⟨frame', outer, popped', rfl⟩
  cases popped.symm.trans popped'
  have extends' : before.analysis.ast.Extends behindStatements.analysis.ast :=
    started_ast ▸ inner_proceeds.extends'
  have kind_eq (id : DeclId) (earlier : id.index < before.analysis.ast.decls.size) :
      behindStatements.analysis.ast.kindOf id = before.analysis.ast.kindOf id := by
    rw [inner_proceeds.kind_eq id (by rw [started_ast]; exact earlier), started_ast]
  have function_eq : behindStatements.analysis.function = before.analysis.function :=
    inner_inBody.inside.trans inBody.inside.symm
  have left_inBody : InBody scope
      (behindStatements.analysis.withScopes before.analysis.scopes) :=
    inBody.of_scopes_eq extends' kind_eq function_eq inner_inBody.sound rfl
  rw [parses_check]
  refine (Analysis.addStmt_ensures (.block statements)).mono ?_ fun _ _ external => external
  intro id after puts
  refine ⟨behind, Analysis.advances_of_puts left_inBody ⟨extends', kind_eq, rfl⟩ puts ?_ (by simp)
    returns fun form => ?_, by rw [puts.2]; rfl⟩
  · exact .of_unguarded (by simp) (by simp) (by simp [Stmt.expressions]) (by simp [Stmt.declared?])
  · rw [started_ast] at inScope
    exact .block form (inScope.extends' (Proceeds.of_puts puts).extends') (.nil _)

/-- Both branches of a choice are parsed behind its guard. -/
theorem ifElse_parses (nested_parses : ParsesStatement scope fuel nested) :
    ParsesStatement scope fuel (ifElse nested fuel) := by
  intro before within inBody
  rw [ifElse, parses_bind]
  refine (guard_parses within inBody.typed).mono ?_
  rintro guard behindGuard ⟨behind, gives⟩
  have guard_inBody := inBody.adds gives.1
  rw [parses_bind]
  refine (nested_parses behindGuard (behind.notBefore.within within) guard_inBody).mono ?_
  rintro whenTrue behindTrue ⟨true_behind, true_advances⟩
  have behind := behind.trans true_behind
  rw [parses_bind]
  refine (expectWord_parses (behind.notBefore.within within) .elseWord).mono ?_
  rintro _ behindElse ⟨else_behind, else_same⟩
  have behind := behind.trans else_behind
  rw [parses_bind]
  refine (nested_parses behindElse (behind.notBefore.within within)
    (by rw [else_same]; exact true_advances.inBody)).mono ?_
  rintro whenFalse behindFalse ⟨false_behind, false_advances⟩
  have behind := behind.trans false_behind
  rw [else_same] at false_advances
  have branch_extends := true_advances.proceeds.extends'.trans false_advances.proceeds.extends'
  have guard_held : behindFalse.analysis.Holds 0 guard :=
    ⟨Nat.zero_le _, gives.2.2.trans_le branch_extends.exprs_le⟩
  rw [parses_check]
  refine (Analysis.ifElse_ensures whenTrue whenFalse guard_held).mono ?_ fun _ _ fails => fails.2
  intro id after puts
  have true_returns := true_advances.returns whenTrue (by simp)
  have false_returns := false_advances.returns whenFalse (by simp)
  have names := (inBody.names gives).extends' branch_extends
  refine ⟨behind, Analysis.advances_of_putsGuarded false_advances.inBody
    (((Proceeds.of_adds gives.1).trans true_advances.proceeds).trans false_advances.proceeds) puts
    (fun _ => rfl) (by simp) (fun _ => rfl) ?_ names ?_⟩
  · intro value child member
    obtain rfl | rfl : child = whenTrue ∨ child = whenFalse := by
      simpa [Stmt.children] using member
    · exact true_returns.extends' false_advances.proceeds.extends'
    · exact false_returns
  · intro value extends' form value_names
    have left := (true_advances.inScope.extends' false_advances.proceeds.extends').extends' extends'
    rw [gives.1.decls_eq] at left
    exact .ifElse form value_names left (false_advances.inScope.extends' extends') (.nil _)

/-- The body of a guarded statement is parsed behind its guard. -/
theorem guarded_parses {combine : ExprId → StmtId → Check StmtId}
    (form : ExprId → StmtId → Stmt)
    (ensures : ∀ (analysis : Analysis) guard body, analysis.Holds 0 guard →
      Analysis.Ensures (combine guard body) analysis
        (PutsGuarded 0 analysis guard (form · body)) (Analysis.Fails 0 analysis))
    (expressions : ∀ value body, (form value body).expressions = [value])
    (notReturn : ∀ value body returned, form value body ≠ .returnValue returned)
    (undeclared : ∀ value body, (form value body).declared? = none)
    (children : ∀ value body, (form value body).children = [body])
    (inScope : ∀ (ast : Ast) first id value body last, ast.StmtIs id (form value body) →
      ast.Names (scope.Visible first) value → ast.Scoped scope.Visible first [body] last →
      ast.Scoped scope.Visible first [id] last)
    (nested_parses : ParsesStatement scope fuel nested) :
    ParsesStatement scope fuel (guarded combine nested fuel) := by
  intro before within inBody
  rw [guarded, parses_bind]
  refine (guard_parses within inBody.typed).mono ?_
  rintro guard behindGuard ⟨behind, gives⟩
  rw [parses_bind]
  refine (nested_parses behindGuard (behind.notBefore.within within) (inBody.adds gives.1)).mono ?_
  rintro body behindBody ⟨body_behind, advances⟩
  have behind := behind.trans body_behind
  have body_extends := advances.proceeds.extends'
  rw [parses_check]
  refine (ensures _ guard body ⟨Nat.zero_le _, gives.2.2.trans_le body_extends.exprs_le⟩).mono ?_
    fun _ _ fails => fails.2
  intro id after puts
  refine ⟨behind, Analysis.advances_of_putsGuarded advances.inBody
    ((Proceeds.of_adds gives.1).trans advances.proceeds) puts (fun value => expressions value body)
    (fun value => notReturn value body) (fun value => undeclared value body) ?_
    ((inBody.names gives).extends' body_extends) ?_⟩
  · intro value child member
    rw [children, List.mem_singleton] at member
    exact member ▸ advances.returns body (by simp)
  · intro value extends' formed names
    have bodyScoped := advances.inScope.extends' extends'
    rw [gives.1.decls_eq] at bodyScoped
    exact inScope _ _ _ _ _ _ formed names bodyScoped

/-- A jump is a statement of its own. -/
theorem jump_parses {combine : Token → Check StmtId} (form : Location → Stmt) {token : Token}
    (within : before.Within fuel) (inBody : InBody scope before.analysis)
    (found : before.tokens.lookahead 0 = .ok token) (more : token.kind ≠ .endOfInput)
    (combine_eq : combine token = Analysis.addStmt (form token.location))
    (typed : ∀ ast : Ast, ast.StmtTyped (form token.location))
    (notReturn : ∀ value, form token.location ≠ .returnValue value)
    (children : (form token.location).children = [])
    (inScope : ∀ (ast : Ast) count id, ast.StmtIs id (form token.location) →
      ast.Scoped scope.Visible count [id] count) :
    Parses (jump combine) before fun id after =>
      before.Behind after ∧ Advances scope before.analysis [id] after.analysis := by
  rw [jump, parses_bind]
  refine (next_parses within found more).mono ?_
  rintro _ behindWord ⟨rfl, behind, same⟩
  rw [parses_bind]
  refine (expectSign_parses (behind.notBefore.within within) .semicolon).mono ?_
  rintro _ behindSemicolon ⟨semicolon_behind, semicolon_same⟩
  rw [parses_check, combine_eq, semicolon_same, same]
  refine (Analysis.addStmt_ensures _).mono ?_ fun _ _ external => external
  intro id after puts
  exact ⟨behind.trans semicolon_behind, Analysis.advances_of_puts inBody (.refl _) puts (typed _)
    (fun value returns => absurd returns (notReturn value)) (by simp [children])
    fun formed => inScope _ _ _ formed⟩

/-- An expression with a semicolon behind it. -/
theorem terminated_parses {combine : ExprId → Check StmtId}
    (ensures : ∀ (start analysis : Analysis) value, InBody scope start →
      Gives start.ast.exprs.size start value analysis →
      Analysis.Ensures (combine value) analysis
        (fun id after => Advances scope start [id] after)
        (fun error _ => error.isFault = true)) :
    ParsesStatement scope fuel (terminated combine fuel) := by
  intro before within inBody
  rw [terminated, parses_bind]
  refine (expression_parses_names within inBody.typed).mono ?_
  rintro value behindExpression ⟨later, gives⟩
  rw [parses_bind]
  refine (expectSign_parses (later.within within) .semicolon).mono ?_
  rintro _ behindSemicolon ⟨behind, same⟩
  rw [parses_check, same]
  exact (ensures _ _ value inBody gives).mono
    (fun _ _ advances => ⟨later.trans_behind behind, advances⟩) fun _ _ external => external

/-- Every statement inside a function is parsed into a scoped one. -/
theorem statementWithin_parses (scope : FunctionScope) (fuel : Nat) :
    ParsesStatement scope fuel (statementWithin fuel) := by
  induction fuel with
  | zero => exact fun before within => absurd within.2 (Nat.not_lt_zero _)
  | succ fuel induction =>
      intro before within inBody
      have behindWord {token : Token} {parser : Parser StmtId}
          (found : before.tokens.lookahead 0 = .ok token) (more : token.kind ≠ .endOfInput)
          (parses : ParsesStatement scope fuel parser) :
          Parses (do let _ ← next; parser) before fun id after =>
            before.Behind after ∧ Advances scope before.analysis [id] after.analysis := by
        rw [parses_bind]
        refine (next_parses within found more).mono ?_
        rintro _ middle ⟨-, behind, same⟩
        refine (parses middle (behind.within within) (by rw [same]; exact inBody)).mono ?_
        rintro id after ⟨later, advances⟩
        rw [same] at advances
        exact ⟨behind.trans later, advances⟩
      have declares : Parses (do
          let declaration ← localDeclaration (fuel + 1)
          check (Analysis.declarationStatement declaration)) before fun id after =>
            before.Behind after ∧ Advances scope before.analysis [id] after.analysis := by
        rw [parses_bind]
        refine (localDeclaration_parses within inBody.typed).mono ?_
        rintro declaration middle ⟨behind, kind, declares⟩
        rw [parses_check]
        refine (Analysis.addStmt_ensures (.declaration declaration)).mono ?_
          fun _ _ external => external
        exact fun id after puts => ⟨behind, Analysis.advances_of_declared inBody declares puts⟩
      rw [statementWithin, parses_bind]
      refine (peek_parses within).mono ?_
      rintro kind state ⟨⟨token, found, spelled⟩, rfl⟩
      have more : kind ≠ .endOfInput → token.kind ≠ .endOfInput := fun other => spelled ▸ other
      split
      · exact (block_parses induction within inBody).mono
          fun _ _ parsed => ⟨parsed.1, parsed.2.1⟩
      · exact behindWord found (more (by simp)) (ifElse_parses induction)
      · exact behindWord found (more (by simp)) (guarded_parses .whenTrue
          (fun _ _ body held => Analysis.whenTrue_ensures body held) (fun _ _ => rfl) (by simp)
          (fun _ _ => rfl) (fun _ _ => rfl)
          (fun _ _ _ _ _ _ form names body => .whenTrue form names body (.nil _)) induction)
      · exact behindWord found (more (by simp)) (guarded_parses .whileTrue
          (fun _ _ body held => Analysis.whileTrue_ensures body held) (fun _ _ => rfl) (by simp)
          (fun _ _ => rfl) (fun _ _ => rfl)
          (fun _ _ _ _ _ _ form names body => .whileTrue form names body (.nil _)) induction)
      · exact jump_parses .breakLoop within inBody found (more (by simp)) rfl
          (fun _ => .of_unguarded (by simp) (by simp) (by simp [Stmt.expressions])
            (by simp [Stmt.declared?])) (by simp) rfl fun _ _ _ form => .breakLoop form (.nil _)
      · exact jump_parses .continueLoop within inBody found (more (by simp)) rfl
          (fun _ => .of_unguarded (by simp) (by simp) (by simp [Stmt.expressions])
            (by simp [Stmt.declared?])) (by simp) rfl
          fun _ _ _ form => .continueLoop form (.nil _)
      · refine behindWord found (more (by simp)) (terminated_parses ?_)
        intro start analysis value start_inBody gives
        have analysis_inBody := start_inBody.adds gives.1
        refine (Analysis.returnValue_ensures gives.2).mono ?_
          fun _ _ fails => fails.2 analysis_inBody.inFunction
        rintro id after ⟨returned, middle, function, parameters, returned_gives, inside, declared,
          puts⟩
        cases inside.symm.trans analysis_inBody.inside
        have declared' : (start.ast.kindOf scope.function).type? =
            some (.function (middle.ast.typeOf returned) parameters) := by
          rw [Ast.kindOf, Ast.decl, gives.1.decls_eq] at declared
          exact declared
        exact Analysis.advances_of_returned start_inBody (returned_gives.trans gives.1) declared'
          puts
      · exact declares
      · exact declares
      · exact declares
      · refine terminated_parses ?_ state within inBody
        intro start analysis value start_inBody gives
        exact (Analysis.addStmt_ensures _).mono
          (fun _ _ puts => Analysis.advances_of_expression start_inBody gives puts)
          fun _ _ external => external

end Statements

end Minilang.Parser
