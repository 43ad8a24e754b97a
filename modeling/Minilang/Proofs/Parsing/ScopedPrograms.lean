import Minilang.Parsing.Program
import Minilang.Proofs.Parsing.ScopedStatements

/-!
# Programs in lexical scopes

The parameters of a function are listed apart while they are parsed, the function is declared among the
others of the program, and the frame of its body starts with its parameters.
-/

namespace Minilang

open Analysis (Ensures SparesScopes)

namespace LexicalScopes

/-- Whether an analysis has come to a token between the parameters of a function. -/
structure InParameters (function : Token) (found : LexicalFrame) (ids : List DeclId)
    (scopes : LexicalScopes) (analysis : Analysis) : Prop where
  /-- The token stands there. -/
  place_eq : scopes.place = .parameters function found
  /-- It stands in no initializer. -/
  own_eq : scopes.own = none
  /-- It stands at the top of the program. -/
  depth_eq : scopes.frames.length = 1
  /-- The analysis has come there. -/
  describes : scopes.DescribesParameters found ids analysis

variable {scopes : LexicalScopes} {function : Token} {found : LexicalFrame}

/-- Signs among the parameters of a function change nothing. -/
theorem read_comma (place_eq : scopes.place = .parameters function found) {comma : Token}
    (kind_eq : comma.kind = .punctuation .comma) : scopes.read comma = .ok scopes := by
  simp [read, place_eq, kind_eq]

end LexicalScopes

namespace Parser

open LexicalScopes (Within InParameters)

section Parameters

variable {function : Token} {found : LexicalFrame} {ids : List DeclId} {scopes : LexicalScopes}

/-- Whether parameters have been parsed. -/
def ParsedParameters (function : Token) (ids : List DeclId) : ScopedCondition (List DeclId) :=
  fun results later after rest => rest = after.tokens ∧
    ∃ found, InParameters function found (ids ++ results) later after.analysis

theorem parameter_tracks (fuel : Nat) (before : ParserState)
    (inside : InParameters function found ids scopes before.analysis) :
    Tracks (parameter fuel) scopes before before.tokens fun id later after rest => rest = after.tokens ∧
      ∃ found, InParameters function found (ids ++ [id]) later after.analysis := by
  refine .bind (.expectIdentifier fun name text seen kind_eq => ?_)
  have read_name : scopes.read name =
      .ok { scopes with place := .type (.parameter function found name) 0 } := by
    simp [LexicalScopes.read, inside.place_eq, kind_eq]
  refine .step seen (by simp [kind_eq]) read_name ?_
  refine .bind (.expect fun colon seen kind_eq => ?_)
  have read_colon : LexicalScopes.read
      { scopes with place := .type (.parameter function found name) 0 } colon =
      .ok { scopes with place := .type (.parameter function found name) 0 } := by
    simp [LexicalScopes.read, LexicalScopes.readType, kind_eq]
  refine .step seen (by simp [kind_eq]) read_colon ?_
  have nests := LexicalScopes.nests_declared scopes (.parameter function found name)
  refine .bind ((Tracks.typeWithin nests fuel 0 _).mono ?_)
  rintro type _ after rest ⟨rfl, analysis_eq, last, basic, seen, kind_eq, rest_eq⟩
  have read_last := LexicalScopes.read_last scopes (.parameter function found name) kind_eq
  have more : last.kind ≠ .endOfInput := by simp [kind_eq]
  rw [← bind_pure (check _)]
  refine .bind (.check fun proper => ?_)
  rw [analysis_eq]
  have described := inside.describes.moved (.type (.parameter function found name) 0)
  refine (described.declareParameter_ensures inside.own_eq function name type).mono ?_ ?_
  · rintro id declared ⟨later, completed, place_eq, own_eq, frames_eq, describes⟩
    refine .read seen more (read_last.trans completed) (.pure ⟨rest_eq, _, place_eq, own_eq, ?_, describes⟩)
    rw [frames_eq]
    exact inside.depth_eq
  · rintro error _ (other | failed)
    · exact .other other
    · exact .next proper seen more (read_last.trans failed)

theorem parameters_tracks (fuel : Nat) (before : ParserState)
    (inside : InParameters function found ids scopes before.analysis) :
    Tracks (parameters fuel) scopes before before.tokens (ParsedParameters function ids) := by
  have some_parameters (rounds : Nat) {found : LexicalFrame} {ids : List DeclId}
      {scopes : LexicalScopes} (before : ParserState)
      (inside : InParameters function found ids scopes before.analysis) :
      Tracks (sepByComma (parameter fuel) rounds) scopes before before.tokens
        (ParsedParameters function ids) := by
    induction rounds generalizing found ids scopes before with
    | zero => exact .exhausted
    | succ rounds induction =>
        refine .bind ((parameter_tracks fuel before inside).mono ?_)
        rintro first later after _ ⟨rfl, found, inside⟩
        refine .bind (.consume (fun comma seen kind_eq => ?_) (.pure ⟨rfl, found, inside⟩))
        refine .step seen (by simp [kind_eq]) (LexicalScopes.read_comma inside.place_eq kind_eq) ?_
        refine .bind ((induction after.advanced inside).mono ?_)
        rintro others last state _ ⟨rfl, found, inside⟩
        rw [List.append_assoc] at inside
        exact .pure ⟨rfl, found, inside⟩
  refine .bind (.peek fun token seen => ?_)
  split
  · exact .pure ⟨rfl, found, by rwa [List.append_nil]⟩
  · exact some_parameters fuel before inside

end Parameters

/-- What stands in front of the body of a function, behind which the function is declared. -/
def heading (fuel : Nat) : Parser DeclId := do
  expectWord .defWord
  let name ← expectIdentifier
  expectSign .leftParen
  check Analysis.enterParameterScope
  let parameters ← parameters fuel
  expectSign .rightParen
  expectSign .arrow
  let result ← typeWithin fuel
  check Analysis.leaveScope
  check (Analysis.declareFunction name parameters result)

theorem function_eq_heading (fuel : Nat) : function fuel = (do
    let declaration ← heading fuel
    let body ← block (statementWithin fuel) fuel
    check (Analysis.defineFunction declaration body)) := by
  simp only [function, heading, bind_assoc]

/-- Whether the body of a declared function is to follow. -/
def AwaitsBody (declaration : DeclId) (scopes : LexicalScopes) (analysis : Analysis) : Prop :=
  ∃ found, scopes.place = .body found ∧ scopes.own = none ∧ scopes.frames.length = 1 ∧
    scopes.Describes analysis ∧ analysis.function = some declaration ∧
    found.Lists analysis.ast (analysis.ast.kindOf declaration).parameters

section Functions

variable {function : Token} {found : LexicalFrame} {parameters : List DeclId} {scopes : LexicalScopes}

/-- Where a body is to follow, a block can be opened, and its frame holds the parameters. -/
theorem AwaitsBody.opens {declaration : DeclId} {analysis : Analysis}
    (awaits : AwaitsBody declaration scopes analysis) : scopes.Opens 2 analysis := by
  obtain ⟨found, place_eq, own_eq, outermost, describes, function_eq, lists⟩ := awaits
  intro brace _
  refine ⟨{ scopes with place := .code, frames := found :: scopes.frames }, ?_, ?_⟩
  · simp [LexicalScopes.read, place_eq]
  · exact (describes.startBody_ensures outermost function_eq rfl lists).mono
      (fun _ _ started => ⟨rfl, own_eq, congrArg Nat.succ outermost, started⟩) fun _ _ => id

/-- The body of a function is parsed with the parameters in its frame. -/
theorem body_tracks (fuel : Nat) (before : ParserState) {declaration : DeclId}
    (awaits : AwaitsBody declaration scopes before.analysis) :
    Tracks (do
        let body ← block (statementWithin fuel) fuel
        check (Analysis.defineFunction declaration body)) scopes before before.tokens
      fun _ later after rest => rest = after.tokens ∧ later.Within 1 none after.analysis := by
  rw [block_eq_openBlock, bind_assoc]
  refine .bind ((Tracks.openBlock awaits.opens).mono ?_)
  rintro _ opened started _ ⟨rfl, within⟩
  have statements : Keeps 2 none (fun _ => True) (statementWithin fuel) := .statementWithin (by decide) fuel
  refine .bind ((Keeps.closeBlock statements (by decide) fuel within).mono ?_)
  rintro body last after _ ⟨rfl, within⟩
  refine .check fun _ => (within.describes.defineFunction_ensures within.own_eq declaration body).mono
    ?_ fun _ _ => .other
  intro _ done describes
  rw [← within.own_eq] at describes
  exact ⟨rfl, within.place_eq, within.own_eq, within.depth_eq, describes⟩

/-- Behind the parameters of a function stands its result type, at the end of which it is declared. -/
theorem result_tracks (fuel : Nat) (before : ParserState)
    (inside : InParameters function found parameters scopes before.analysis) :
    Tracks (do
        let result ← typeWithin fuel
        check Analysis.leaveScope
        check (Analysis.declareFunction function parameters result))
      { scopes with place := .type (.function function found) 0 } before before.tokens
      fun declaration later after rest => rest = after.tokens ∧
        AwaitsBody declaration later after.analysis := by
  have nests := LexicalScopes.nests_declared scopes (.function function found)
  refine .bind ((Tracks.typeWithin nests fuel 0 before).mono ?_)
  rintro result _ typed rest ⟨rfl, analysis_eq, last, basic, seen, kind_eq, rest_eq⟩
  have read_last := LexicalScopes.read_last scopes (.function function found) kind_eq
  have more : last.kind ≠ .endOfInput := by simp [kind_eq]
  refine .bind (.check fun _ => ?_)
  rw [analysis_eq]
  refine (inside.describes.moved (.type (.function function found) 0)).leaveScope_ensures.mono ?_
    fun _ _ => False.elim
  rintro _ left ⟨describes, lists⟩
  rw [← bind_pure (check _)]
  refine .bind (.check fun proper => (describes.declareFunction_ensures inside.own_eq lists function
    result).mono ?_ ?_)
  · rintro declaration declared ⟨later, completed, place_eq, own_eq, length_eq, describes, function_eq,
      rfl, lists⟩
    refine .read seen more (read_last.trans completed) (.pure ⟨rest_eq, found, place_eq, own_eq, ?_⟩)
    exact ⟨length_eq.trans inside.depth_eq, describes, function_eq, lists⟩
  · rintro error _ (other | failed)
    · exact .other other
    · exact .next proper seen more (read_last.trans failed)

/-- Behind its heading a function is declared, and its body is to follow. -/
theorem heading_tracks (fuel : Nat) (before : ParserState)
    (within : scopes.Within 1 none before.analysis) :
    Tracks (heading fuel) scopes before before.tokens fun declaration later after rest =>
      rest = after.tokens ∧ AwaitsBody declaration later after.analysis := by
  refine .bind (.expect fun word seen kind_eq => ?_)
  have introduces : word.kind = .keyword (ObjectKind.keyword .value) := kind_eq
  refine .step seen (by simp [kind_eq]) (LexicalScopes.read_word within.place_eq introduces) ?_
  refine .bind (.expectIdentifier fun name text seen kind_eq => ?_)
  refine .step seen (by simp [kind_eq]) (by rfl) ?_
  refine .bind (.expect fun opening seen kind_eq => ?_)
  have read_opening : LexicalScopes.read { scopes with place := .name .value name } opening =
      .ok { scopes with place := .parameters name [] } := by
    simp [LexicalScopes.read, kind_eq]
  refine .step seen (by simp [kind_eq]) read_opening ?_
  refine .bind (.check fun _ => (within.describes.moved
    (.parameters name [])).enterParameterScope_ensures.mono ?_ fun _ _ => id)
  intro _ entered describes
  have inside : InParameters name [] [] { scopes with place := .parameters name [] } entered :=
    ⟨rfl, within.own_eq, within.depth_eq, describes⟩
  refine .bind ((parameters_tracks fuel _ inside).mono ?_)
  rintro parameters listed after _ ⟨rfl, found, inside⟩
  rw [List.nil_append] at inside
  refine .bind (.expect fun closing seen kind_eq => ?_)
  have read_closing : listed.read closing =
      .ok { listed with place := .type (.function name found) 0 } := by
    simp [LexicalScopes.read, inside.place_eq, kind_eq]
  refine .step seen (by simp [kind_eq]) read_closing ?_
  refine .bind (.expect fun arrow seen kind_eq => ?_)
  have nests := LexicalScopes.nests_declared listed (.function name found)
  refine .step seen (by simp [kind_eq]) (nests.keeps 0 arrow (.inr (.inl kind_eq))) ?_
  exact result_tracks fuel after.advanced.advanced inside

end Functions

namespace Keeps

theorem function (fuel : Nat) : Keeps 1 none (fun _ => True) (function fuel) := by
  intro scopes before within _
  rw [function_eq_heading]
  refine .bind ((heading_tracks fuel before within).mono ?_)
  rintro declaration later after _ ⟨rfl, awaits⟩
  exact body_tracks fuel after awaits

theorem declaration (fuel : Nat) : Keeps 1 none (fun _ => True) (declaration fuel) := by
  refine .peek_bind fun kind => ?_
  split
  · exact (object _ fuel).always
  · exact (object _ fuel).always
  · refine definition fun token => ?_
    split
    · exact (object _ fuel).always
    · exact (function fuel).always
    · exact misplacedDefinition _
  · exact .unexpected _

end Keeps

/-- Declarations are parsed up to the end of input. -/
theorem declarations_tracks {item : Parser DeclId} (keeps : Keeps 1 none (fun _ => True) item)
    (fuel : Nat) {scopes : LexicalScopes} (before : ParserState)
    (within : scopes.Within 1 none before.analysis) :
    Tracks (declarations item fuel) scopes before before.tokens fun _ later after rest =>
      later.Within 1 none after.analysis ∧
        ∃ last, rest.lookahead 0 = .ok last ∧ last.kind = .endOfInput := by
  induction fuel generalizing scopes before with
  | zero => exact .exhausted
  | succ fuel induction =>
      refine .bind (.peek fun token seen => ?_)
      split
      · next end_reached => exact .pure ⟨within, token, seen, end_reached⟩
      · refine .bind ((keeps scopes before within fun _ _ => trivial).mono ?_)
        rintro first later after _ ⟨rfl, within⟩
        refine .bind ((induction after within).mono ?_)
        exact fun _ _ _ _ parsed => .pure parsed

/-- A whole text is read up to the end of input, and the nodes of the program are those that have been
read, and the program. -/
theorem program_tracks (name : String) (fuel : Nat) (tokens : TokenStream) :
    Tracks (program name fuel) .start ⟨tokens, .initial⟩ tokens fun _ later after rest =>
      (∃ last, rest.lookahead 0 = .ok last ∧ last.kind = .endOfInput) ∧
        ∃ ast decl, later.Records ast ∧ after.analysis.ast = (ast.addDecl decl).2 := by
  refine .bind (.check fun _ => ?_)
  rw [Analysis.enterGlobalScope, Analysis.ensures_bind, Analysis.ensures_get,
    if_neg (not_not.2 (by rfl)), Analysis.ensures_setScopes]
  have within : LexicalScopes.Within 1 none .start
      (Analysis.initial.withScopes (Analysis.initial.scopes.push .global)) :=
    ⟨rfl, rfl, rfl, rfl, ⟨0, rfl⟩, .initial⟩
  refine .bind ((declarations_tracks (Keeps.declaration fuel) fuel ⟨tokens, _⟩ within).mono ?_)
  rintro globals later after rest ⟨within, ended⟩
  obtain ⟨frame, outer, frames⟩ := within.describes.frames_cons
  have popped : after.analysis.scopes.pop? = some (frame, ⟨outer⟩) := by
    rw [ScopeChain.pop?, frames]
  refine .bind (.check fun _ => ?_)
  rw [Analysis.leaveScope, Analysis.ensures_bind, Analysis.ensures_get, popped]
  dsimp only
  rw [Analysis.ensures_setScopes]
  refine .check fun _ => (Analysis.addProgram_ensures name globals).mono ?_ fun _ _ => id
  rintro root whole ⟨-, rfl⟩
  exact ⟨ended, _, _, within.describes.records, rfl⟩

end Parser

end Minilang
