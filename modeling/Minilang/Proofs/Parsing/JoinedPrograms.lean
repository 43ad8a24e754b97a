import Minilang.Proofs.Parsing.DeclaredNames
import Minilang.Proofs.Parsing.JoinedTexts
import Minilang.Proofs.Parsing.LazyReading

/-!
# Joined programs

The declarations of a text mean the same behind those of another one, as long as none of their names has been
taken. The first one whose name has been taken is rejected.
-/

namespace Minilang

namespace Parser

variable {correspondence : Correspondence} {before after other : ParserState} {fuel rounds : Nat}
  {ids : List DeclId}

/-- Whether the name of a declaration has been bound before. -/
def Clashes (correspondence : Correspondence) (ast : Ast) (id : DeclId) : Bool :=
  (correspondence.bound.lookup (correspondence.rename (ast.decl id).name)).isSome

/-- Declarations behind a state take nothing away. -/
theorem declarations_precedes (states : Correspondence.identity.States 1 before before)
    (run : (declarations (declaration fuel) rounds).run before = .ok (ids, after)) :
    before.analysis.Precedes after.analysis := by
  have items (state : ParserState) : Mirrors .identity 1 1 (declaration fuel) (declaration fuel) state
      Correspondence.identity.DeclIds :=
    declaration_mirrors Nat.one_pos (fun _ _ => .inr fun _ _ => rfl) fuel
  exact ((declarations_mirrors items rounds).run_self states run).1

/-- Declarations are parsed as they would be alone, up to the first one whose name has been bound before. -/
theorem declarations_joined (states : correspondence.States 1 before other)
    (own : Correspondence.identity.States 1 before before)
    (run : (declarations (declaration fuel) rounds).run before = .ok (ids, after)) :
    match ids.find? (Clashes correspondence after.analysis.ast) with
    | none => ∃ otherAfter, (declarations (declaration fuel) rounds).run other =
        .ok (ids.map correspondence.decl, otherAfter) ∧ correspondence.States 1 after otherAfter
    | some id => ∃ location,
        correspondence.places (after.analysis.ast.decl id).location location ∧
          (declarations (declaration fuel) rounds).run other = .error (.semantic location
            (.redeclaration (correspondence.rename (after.analysis.ast.decl id).name))) := by
  induction rounds generalizing before other ids with
  | zero => cases run
  | succ rounds induction =>
      obtain ⟨kind, _, peeked, decided⟩ := run_bind_ok run
      obtain rfl := peek_ok peeked
      have outcome := peek_mirrors other states
      rw [peeked] at outcome
      obtain ⟨otherKind, _, otherPeeked, -, -, -, rfl⟩ := outcome
      obtain rfl := peek_ok otherPeeked
      by_cases end_reached : kind = .endOfInput
      · subst end_reached
        obtain ⟨rfl, rfl⟩ := decided
        refine ⟨_, ?_, states⟩
        rw [declarations, run_bind_of_ok otherPeeked]
        rfl
      · have otherMore : kind.rename correspondence.rename ≠ .endOfInput := by
          cases kind <;> first | exact TokenKind.noConfusion | exact absurd rfl end_reached
        rw [run_declarations_of_more otherPeeked otherMore]
        rw [run_declarations_of_more peeked end_reached] at run
        obtain ⟨first, middle, runFirst, run⟩ := run_bind_ok run
        obtain ⟨rest, last, runRest, run⟩ := run_bind_ok run
        obtain ⟨rfl, rfl⟩ := run
        obtain ⟨token, found, heads, own⟩ := declaration_heads own runFirst
        obtain ⟨-, spelled, location_eq⟩ := heads.mono (declarations_precedes own runRest)
        cases clash : Clashes correspondence after.analysis.ast first with
        | true =>
            rw [List.find?_cons_of_pos clash]
            obtain ⟨location, places, rejected⟩ :=
              declaration_clashes states found spelled clash runFirst
            refine ⟨location, location_eq ▸ places, ?_⟩
            rw [run_bind, rejected]
        | false =>
            rw [List.find?_cons_of_neg (Bool.eq_false_iff.1 clash)]
            have free (named : Token) (same : before.tokens.lookahead 1 = .ok named) :
                Analysis.Free correspondence 1 named := by
              cases found.symm.trans same
              refine .inr fun name called => ?_
              cases spelled.symm.trans called
              exact Option.not_isSome_iff_eq_none.1 (Bool.eq_false_iff.1 clash)
            have outcome := declaration_mirrors Nat.one_pos free fuel other states
            rw [runFirst] at outcome
            obtain ⟨_, otherMiddle, otherFirst, -, states, -, rfl⟩ := outcome
            have rejoined := induction states own runRest
            rw [run_bind_of_ok otherFirst]
            split at rejoined
            · obtain ⟨otherAfter, otherRest, states⟩ := rejoined
              exact ⟨otherAfter, by rw [run_bind_of_ok otherRest]; rfl, states⟩
            · obtain ⟨location, places, rejected⟩ := rejoined
              exact ⟨location, places, by rw [run_bind, rejected]⟩

end Parser

/-! ## Texts that are parsed -/

namespace TokenStream

variable {tokens more : TokenStream} {error : Diagnostic}

/-- What is read from a text ends where it should. -/
theorem ReadBy.proper {scanner : Scanner} (readBy : ReadBy scanner tokens) : tokens.Proper := by
  induction readBy with
  | token _ more _ induction => exact ⟨more, induction⟩
  | finished _ end_reached => exact end_reached
  | failed => trivial

/-- A stream that ends at no fault goes on to the end of its text. -/
theorem complete_of_fault? (faultless : tokens.fault? = none) : tokens.Complete := by
  induction tokens with
  | token first rest induction => exact induction faultless
  | finished => trivial
  | failed => cases faultless

theorem length_followedBy (complete : tokens.Complete) :
    (tokens.followedBy (some more)).length = tokens.length + more.length := by
  induction tokens with
  | token first rest induction => rw [followedBy, length, length, induction complete, Nat.add_right_comm]
  | finished => exact (Nat.zero_add _).symm
  | failed => exact complete.elim

theorem length_down (lines : Nat) : (tokens.down lines).length = tokens.length := by
  induction tokens with
  | token first rest induction => exact congrArg (· + 1) induction
  | finished | failed => rfl

end TokenStream

/-- A text that is parsed can be read to its end. -/
theorem complete_of_parse {source : Source} {program : Program} (parsed : parse source = .ok program) :
    (TokenStream.ofSource source).Complete := by
  refine TokenStream.complete_of_fault? (Option.eq_none_iff_forall_not_mem.2 fun error fault => ?_)
  have mirrored := parseStream_mirrored ⟨rfl, rfl⟩
    ((TokenStream.readBy_ofSource source).streams fault fun _ member => member) source.name source.name
  rw [← parse, parsed] at mirrored
  cases mirrored.1

/-- The analysis in front of the first declaration of a program. -/
def Analysis.opened : Analysis := Analysis.initial.withScopes (ScopeChain.empty.push .global)

theorem Analysis.run_leaveScope {analysis : Analysis} {frame : Scope} {outer : List Scope}
    (frames_eq : analysis.scopes.frames = frame :: outer) :
    leaveScope.run analysis = (.ok (), analysis.withScopes ⟨outer⟩) := by
  obtain ⟨ast, ⟨frames⟩, function⟩ := analysis
  cases frames_eq
  rfl

/-- The program with a name whose declarations are given. -/
def Ast.whole (ast : Ast) (name : String) (ids : List DeclId) : Program :=
  ⟨(ast.addDecl ⟨name, .unknown, .program ids⟩).2, (ast.addDecl ⟨name, .unknown, .program ids⟩).1⟩

namespace Parser

/-- Parse the declarations of a text whose tokens are given. -/
def runDeclarations (tokens : TokenStream) : Except Diagnostic (List DeclId × ParserState) :=
  (declarations (declaration (tokens.length + 1)) (tokens.length + 1)).run ⟨tokens, .opened⟩

variable {source : Source} {ids : List DeclId} {after : ParserState} {error : Diagnostic}
  {program : Program}

theorem run_enterGlobalScope (tokens : TokenStream) :
    (check Analysis.enterGlobalScope).run ⟨tokens, .initial⟩ = .ok ((), ⟨tokens, .opened⟩) := rfl

/-- Where the declarations of a text are parsed, its program is. -/
theorem parse_of_declarations (run : runDeclarations (.ofSource source) = .ok (ids, after)) :
    Analysis.AtTop ids after.analysis ∧
      parse source = .ok (after.analysis.ast.whole source.name ids) := by
  have within : (⟨.ofSource source, .opened⟩ : ParserState).Within
      ((TokenStream.ofSource source).length + 1) :=
    ⟨TokenStream.ofSource_clean source, Nat.lt_succ_self _⟩
  have start : Analysis.AtTop [] .opened := ⟨.empty, rfl, rfl, List.nodup_nil, by simp⟩
  have atTop := declarations_parses le_rfl within start
  rw [Parses, ← runDeclarations, run] at atTop
  refine ⟨atTop, ?_⟩
  have left := @run_check_of_ok _ after _ _ _ (Analysis.run_leaveScope atTop.frames_eq)
  rw [parse, parseStream, program, run_bind_of_ok (run_enterGlobalScope _),
    run_bind_of_ok run, run_bind_of_ok left]
  rfl

theorem parse_of_declarations_error (run : runDeclarations (.ofSource source) = .error error) :
    parse source = .error error := by
  rw [parse, parseStream, program, run_bind_of_ok (run_enterGlobalScope _), run_bind,
    ← runDeclarations, run]

/-- The declarations of a text that is parsed. -/
theorem declarations_of_parse (parsed : parse source = .ok program) :
    ∃ ids after, runDeclarations (.ofSource source) = .ok (ids, after) ∧
      Analysis.AtTop ids after.analysis ∧ program = after.analysis.ast.whole source.name ids := by
  cases run : runDeclarations (.ofSource source) with
  | ok result =>
      obtain ⟨ids, after⟩ := result
      obtain ⟨atTop, same⟩ := parse_of_declarations run
      exact ⟨ids, after, rfl, atTop, Except.ok.inj (parsed.symm.trans same)⟩
  | error error => cases parsed.symm.trans (parse_of_declarations_error run)

end Parser

/-! ## Texts that are joined -/

namespace Correspondence

/-- A program that is found again behind another one, further down. -/
def behind (base : Ast) (bound : List (String × DeclId)) (lines : Nat) : Correspondence where
  rename name := name
  names _ := True
  injective _ _ _ _ same := same
  places location other := other = location.down lines
  fault? := none
  base := base
  bound := bound

variable {base : Ast} {bound : List (String × DeclId)} {lines : Nat} {tokens : TokenStream}

theorem streams_down (proper : tokens.Proper) (complete : tokens.Complete) :
    (behind base bound lines).Streams tokens (tokens.down lines) := by
  have belong (token : Token) : (behind base bound lines).Tokens token (token.down lines) :=
    ⟨⟨fun _ _ => trivial, (tokens_identity token).kinds.2⟩, rfl⟩
  induction tokens with
  | token first rest induction => exact .token (belong first) proper.1 (induction proper.2 complete)
  | finished last => exact .finished rfl (belong last)
  | failed => exact complete.elim

/-- In front of its declarations, nothing of a program has been found yet behind another one. -/
theorem analyses_opened {globals : List DeclId} {analysis : Analysis}
    (atTop : Analysis.AtTop globals analysis) :
    (behind analysis.ast
      (globals.map fun id => ((analysis.ast.decl id).name, id)).reverse lines).Analyses 1 .opened
        analysis := by
  refine ⟨⟨rfl, rfl, rfl, ?_, ?_, ?_, .refl _, ?_⟩, ?_, rfl, atTop.outside⟩
  · exact fun id earlier => absurd earlier (Nat.not_lt_zero _)
  · exact fun id earlier => absurd earlier (Nat.not_lt_zero _)
  · exact fun id earlier => absurd earlier (Nat.not_lt_zero _)
  · intro id parameter member
    cases member
  · rw [atTop.frames_eq]
    exact .outermost .global .nil

end Correspondence

namespace Parser

variable {left right : TokenStream} {ids others : List DeclId} {middle after : ParserState}

/-- The declarations of two texts, parsed one behind the other. -/
theorem runDeclarations_followedBy (lines : Nat)
    (leftProper : left.Proper) (leftComplete : left.Complete)
    (rightProper : right.Proper) (rightComplete : right.Complete)
    (leftRun : runDeclarations left = .ok (ids, middle))
    (atTop : Analysis.AtTop ids middle.analysis)
    (rightRun : runDeclarations right = .ok (others, after))
    {correspondence : Correspondence} (same : correspondence = .behind middle.analysis.ast
      (ids.map fun id => ((middle.analysis.ast.decl id).name, id)).reverse lines) :
    match others.find? (Clashes correspondence after.analysis.ast) with
    | none => ∃ joined, runDeclarations (left.followedBy (some (right.down lines))) =
        .ok (ids ++ others.map correspondence.decl, joined) ∧
          correspondence.Asts after.analysis.ast joined.analysis.ast
    | some id => runDeclarations (left.followedBy (some (right.down lines))) =
        .error (.semantic ((after.analysis.ast.decl id).location.down lines)
          (.redeclaration (after.analysis.ast.decl id).name)) := by
  have length_eq : (left.followedBy (some (right.down lines))).length = left.length + right.length := by
    rw [TokenStream.length_followedBy leftComplete, TokenStream.length_down]
  have items : Closes (some (right.down lines)) (declaration (left.length + 1))
      (declaration (left.length + right.length + 1)) :=
    declaration_closes (Nat.succ_le_succ (Nat.le_add_right left.length right.length))
  obtain ⟨ids_lt, continued⟩ := declarations_followedBy items leftProper leftRun
  -- every declaration of the first text takes one round
  obtain ⟨rounds, rounds_eq, rounds_le⟩ : ∃ rounds,
      ids.length + rounds = left.length + right.length + 1 ∧ right.length + 1 ≤ rounds :=
    ⟨left.length + right.length + 1 - ids.length, by omega, by omega⟩
  have alone : (declarations (declaration (left.length + right.length + 1)) rounds).run
      ⟨right, .opened⟩ = .ok (others, after) := by
    have items : Continues none (declaration (right.length + 1))
        (declaration (left.length + right.length + 1)) :=
      (declaration_closes (Nat.succ_le_succ (Nat.le_add_left right.length left.length))).continues
    obtain ⟨-, -, same⟩ := declarations_continues items rounds_le _ _ _ rightProper rightRun
    have run := same TokenStream.not_atSeam_none
    rwa [ParserState.followedBy, ParserState.followedBy, TokenStream.followedBy_none,
      TokenStream.followedBy_none] at run
  have states : correspondence.States 1 ⟨right, .opened⟩ ⟨right.down lines, middle.analysis⟩ :=
    same ▸ ⟨Correspondence.streams_down rightProper rightComplete, Correspondence.analyses_opened atTop⟩
  have own := states.identity rightProper rightComplete
  have outcome := declarations_joined states own alone
  have run_eq := continued rounds
  rw [rounds_eq] at run_eq
  rw [runDeclarations, length_eq]
  split at outcome
  · obtain ⟨joined, run, states⟩ := outcome
    refine ⟨joined, run_eq.trans ?_, states.analyses.asts⟩
    rw [run_bind_of_ok run]
    rfl
  · obtain ⟨location, places, rejected⟩ := outcome
    subst same
    cases places
    refine run_eq.trans ?_
    rw [run_bind, rejected]
    rfl

end Parser

end Minilang
