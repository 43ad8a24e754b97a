import Minilang.Parsing.Statements
import Minilang.Proofs.Parsing.ScopedExpressions

/-!
# Statements in lexical scopes

A declaration of an object is read up to the end of its type before its name is declared. A block opens a
frame and closes it, and a statement leads back to as many frames as it started in.
-/

namespace Minilang

open Analysis (Ensures SparesScopes)

namespace LexicalScopes

variable {scopes : LexicalScopes}

/-- In a declared type, parentheses are counted. -/
theorem nests_declared (scopes : LexicalScopes) (declared : Declared) :
    Nests fun depth => { scopes with place := .type declared depth } where
  opens depth token kind_eq := by simp [read, readType, kind_eq]
  closes depth token kind_eq := by simp [read, readType, kind_eq]
  keeps depth token kind_eq := by
    rcases kind_eq with kind_eq | kind_eq | kind_eq <;> simp [read, readType, kind_eq]
  inside depth token type kind_eq := by simp [read, readType, kind_eq]

/-- At the last word of a declared type the declaration is complete. -/
theorem read_last (scopes : LexicalScopes) (declared : Declared) {last : Token} {type : BasicType}
    (kind_eq : last.kind = .basicType type) :
    read { scopes with place := .type declared 0 } last =
      complete { scopes with place := .type declared 0 } declared := by
  simp [read, readType, kind_eq]

/-- The word that introduces an object is read. -/
theorem read_word (place_eq : scopes.place = .code) {kind : ObjectKind} {word : Token}
    (kind_eq : word.kind = .keyword kind.keyword) :
    scopes.read word = .ok { scopes with place := .word kind } := by
  cases kind <;> simp [read, readCode, place_eq, kind_eq, ObjectKind.keyword]

/-- Behind a word that introduces a declaration only characters can be at fault. -/
theorem faults_behind_word {kind : ObjectKind} (place_eq : scopes.place = .word kind)
    {stream : TokenStream} {error : Diagnostic} (failed : stream.lookahead 1 = .error error) :
    scopes.Faults stream error := by
  cases stream with
  | token first rest =>
      have read_eq : scopes.read first = .ok { scopes with place := .name kind first } := by
        simp [read, place_eq]
      have advances := Advances.token read_eq rest
      rw [TokenStream.eq_failed failed] at advances ⊢
      exact .characters advances
  | finished last => cases failed
  | failed error =>
      cases failed
      exact .characters (.refl scopes _)

/-- Whether a block can be opened: its brace can be read, and what stands at the start of the block succeeds
and leads into as many frames. -/
def Opens (depth : Nat) (scopes : LexicalScopes) (analysis : Analysis) : Prop :=
  ∀ brace : Token, brace.kind = .punctuation .leftBrace → ∃ later, scopes.read brace = .ok later ∧
    Ensures Analysis.startBlock (analysis.withScopes (analysis.scopes.push .block))
      (fun _ started => later.Within depth none started) fun _ _ => False

/-- Within a function, a block can be opened. -/
theorem Within.opens {depth : Nat} {analysis : Analysis} (within : scopes.Within depth none analysis)
    (inside : 1 < depth) : scopes.Opens (depth + 1) analysis := by
  intro brace kind_eq
  refine ⟨{ scopes with frames := [] :: scopes.frames }, ?_, ?_⟩
  · simp [LexicalScopes.read, LexicalScopes.readCode, within.place_eq, kind_eq]
  · obtain ⟨entered, -⟩ :=
      (@Describes.enterBlockScope_ensures scopes analysis within.describes fun _ _ => True).result rfl
    have inner : 2 < ([] :: scopes.frames).length := by
      rw [List.length_cons, within.depth_eq]
      omega
    apply (entered.startBlock_ensures inner).mono ?_ fun _ _ => id
    rintro _ started rfl
    refine ⟨within.place_eq, within.own_eq, ?_, entered⟩
    rw [List.length_cons, within.depth_eq]

end LexicalScopes

namespace Parser

/-- The start of a block, up to its statements, with a step for what is declared there. -/
def openBlock (start : Check Unit) : Parser Unit := do
  expectSign .leftBrace
  check Analysis.enterBlockScope
  check start

/-- The statements of a block, up to the brace that closes it. -/
def closeBlock (nested : Parser StmtId) (fuel : Nat) : Parser StmtId := do
  let statements ← manyUntil .rightBrace nested fuel
  check Analysis.leaveScope
  check (Analysis.block statements)

theorem block_eq_openBlock (nested : Parser StmtId) (fuel : Nat) :
    block nested fuel = (do openBlock Analysis.startBlock; closeBlock nested fuel) := by
  simp only [block, openBlock, closeBlock, bind_assoc]

/-- A block that can be opened is opened. -/
theorem Tracks.openBlock {depth : Nat} {scopes : LexicalScopes} {before : ParserState}
    (opens : scopes.Opens depth before.analysis) :
    Tracks (openBlock Analysis.startBlock) scopes before before.tokens fun _ later after rest =>
      rest = after.tokens ∧ later.Within depth none after.analysis := by
  refine .bind (.expect fun brace found kind_eq => ?_)
  obtain ⟨later, read, ensures⟩ := opens brace kind_eq
  refine .bind (.check fun _ => Analysis.enterBlockScope_ensures.mono ?_ fun _ _ => id)
  rintro _ _ rfl
  rw [← bind_pure (Parser.check _)]
  refine .bind (.check fun _ => ensures.mono ?_ fun _ _ => False.elim)
  intro _ started within
  exact .read found (by simp [kind_eq]) read (.pure ⟨rfl, within⟩)

end Parser

namespace Parser.Keeps

open LexicalScopes (Within)

variable {depth : Nat}

theorem object (kind : ObjectKind) (fuel : Nat) :
    Keeps depth none (fun _ => True) (object kind fuel) := by
  intro scopes before within _
  refine .bind (.expect fun word found kind_eq => ?_)
  refine .step found (by simp [kind_eq]) (LexicalScopes.read_word within.place_eq kind_eq) ?_
  refine .bind (.expectIdentifier fun name text found kind_eq => ?_)
  refine .step found (by simp [kind_eq]) (by rfl) ?_
  refine .bind (.expect fun colon found kind_eq => ?_)
  have read_colon : LexicalScopes.read { scopes with place := .name kind name } colon =
      .ok { scopes with place := .type (.object kind name) 0 } := by
    simp [LexicalScopes.read, kind_eq]
  refine .step found (by simp [kind_eq]) read_colon ?_
  have nests := LexicalScopes.nests_declared scopes (.object kind name)
  refine .bind ((Tracks.typeWithin nests fuel 0 _).mono ?_)
  rintro type _ after rest ⟨rfl, analysis_eq, last, basic, found, kind_eq, rest_eq⟩
  have described := within.describes.moved (.type (.object kind name) 0)
  have read_last := LexicalScopes.read_last scopes (.object kind name) kind_eq
  have more : last.kind ≠ .endOfInput := by simp [kind_eq]
  refine .bind (.check fun proper => ?_)
  rw [analysis_eq]
  refine (described.declareObject_ensures within.own_eq kind name type).mono ?_ ?_
  · rintro id declared ⟨later, completed, place_eq, own, length_eq, describes⟩
    refine .read found more (read_last.trans completed) ?_
    rw [rest_eq]
    refine .bind (.expect fun assign found kind_eq => ?_)
    have idle : assign.kind.isIdle = true := by rw [kind_eq]; rfl
    refine .step found (TokenKind.ne_endOfInput idle) (LexicalScopes.read_idle place_eq idle) ?_
    have initialized := Keeps.expressionWithin fuel later (ParserState.advanced ⟨after.tokens, declared⟩)
      ⟨place_eq, rfl, rfl, describes⟩ fun _ _ => trivial
    refine .bind (initialized.mono ?_)
    rintro value last state _ ⟨rfl, inside⟩
    refine .bind (.expect fun semicolon found kind_eq => ?_)
    have read_semicolon : last.read semicolon = .ok { last with own := none } := by
      simp [LexicalScopes.read, LexicalScopes.readCode, inside.place_eq, kind_eq]
    rw [← bind_pure (Parser.check _)]
    have own_last : last.own = none ∨ last.own = some id := inside.own_eq ▸ own
    refine .bind (.check fun _ => (inside.describes.defineObject_ensures own_last value).mono ?_
      fun _ _ => .other)
    rintro _ done describes
    refine .read found (by simp [kind_eq]) read_semicolon (.pure ⟨rfl, inside.place_eq, rfl, ?_, describes⟩)
    exact inside.depth_eq.trans (length_eq.trans within.depth_eq)
  · rintro error _ (other | failed)
    · exact .other other
    · exact .next proper found more (read_last.trans failed)

/-- A definition that declares nothing fails. -/
theorem misplacedDefinition (expected : Expectation) :
    Keeps depth none (· = .keyword .defWord) (misplacedDefinition expected) := by
  intro scopes before within fitting
  refine .bind (.next fun word found => ?_)
  have kind_eq : word.kind = .keyword (ObjectKind.keyword .value) := fitting word found
  refine .step found (by simp [kind_eq]) (LexicalScopes.read_word within.place_eq kind_eq) ?_
  refine .bind (.expectIdentifier fun name text found kind_eq => ?_)
  exact .step found (by simp [kind_eq]) (by rfl) (.unexpected expected)

/-- What a definition is shows two tokens further on. -/
theorem definition {next : Token → Parser DeclId}
    (keeps : ∀ token, Keeps depth none (· = .keyword .defWord) (next token)) :
    Keeps depth none (· = .keyword .defWord) (lookahead 2 >>= next) := by
  intro scopes before within fitting
  refine .bind ?_
  cases found : before.tokens.lookahead 0 with
  | ok word =>
      have kind_eq : word.kind = .keyword (ObjectKind.keyword .value) := fitting word found
      refine .lookahead_succ found (by simp [kind_eq])
        (LexicalScopes.read_word within.place_eq kind_eq) (fun error => ?_) fun token => ?_
      · exact LexicalScopes.faults_behind_word rfl
      · exact keeps token scopes before within fitting
  | error error => exact .lookahead_failed 2 found

theorem localDeclaration (fuel : Nat) :
    Keeps depth none (fun _ => True) (localDeclaration fuel) := by
  refine .peek_bind fun kind => ?_
  split
  · exact (object _ fuel).always
  · exact (object _ fuel).always
  · refine definition fun token => ?_
    split
    · exact (object _ fuel).always
    · exact misplacedDefinition _
  · exact .unexpected _

theorem guard (fuel : Nat) : Keeps depth none (fun _ => True) (guard fuel) :=
  (expect rfl).bind fun _ => (expressionWithin fuel).bind fun _ => (expect rfl).bind fun _ => .pure _

/-- A statement that ends with a semicolon. -/
theorem semicolon_bind {α : Type} {next : Unit → Parser α}
    (keeps : ∀ result, Keeps depth none (fun _ => True) (next result)) :
    Keeps depth none (fun _ => True) (expectSign .semicolon >>= next) := by
  intro scopes before within _
  refine .bind (.expect fun semicolon found kind_eq => ?_)
  have read_semicolon : scopes.read semicolon = .ok scopes := by
    rw [LexicalScopes.read, within.place_eq]
    dsimp only
    rw [LexicalScopes.readCode, kind_eq]
    dsimp only
    rw [← within.own_eq]
  exact .step found (by simp [kind_eq]) read_semicolon
    (keeps () scopes before.advanced within fun _ _ => trivial)

theorem jump {combine : Token → Check StmtId} {word : TokenKind} (idle : word.isIdle = true)
    (spares : ∀ token, SparesScopes (combine token)) :
    Keeps depth none (· = word) (jump combine) :=
  .next_bind (fun _ same => same ▸ idle) fun token => semicolon_bind fun _ => check (spares token)

theorem terminated {combine : ExprId → Check StmtId} (spares : ∀ value, SparesScopes (combine value))
    (fuel : Nat) : Keeps depth none (fun _ => True) (terminated combine fuel) :=
  (expressionWithin fuel).bind fun value => semicolon_bind fun _ => check (spares value)

section Statements

variable {nested : Parser StmtId}

/-- Statements are parsed up to a brace, which has not been read. -/
theorem manyUntil (keeps : Keeps depth none (fun _ => True) nested) (fuel : Nat)
    {scopes : LexicalScopes} {before : ParserState} (within : scopes.Within depth none before.analysis) :
    Tracks (manyUntil .rightBrace nested fuel) scopes before before.tokens
      fun _ later after rest => later.Within depth none after.analysis ∧
        ∃ brace, rest.lookahead 0 = .ok brace ∧ brace.kind = .punctuation .rightBrace ∧
          rest.rest = after.tokens := by
  induction fuel generalizing scopes before with
  | zero => exact .exhausted
  | succ fuel induction =>
      refine .bind (.consume (fun brace found kind_eq => ?_) ?_)
      · exact .pure ⟨within, brace, found, kind_eq, rfl⟩
      · refine .bind ((keeps scopes before within fun _ _ => trivial).mono ?_)
        rintro first later after _ ⟨rfl, within⟩
        refine .bind ((induction within).mono ?_)
        exact fun _ _ _ _ parsed => .pure parsed

/-- Behind the brace that opens a block, statements lead to the brace that closes it. -/
theorem closeBlock (keeps : Keeps (depth + 1) none (fun _ => True) nested) (positive : 0 < depth)
    (fuel : Nat) {scopes : LexicalScopes} {before : ParserState}
    (within : scopes.Within (depth + 1) none before.analysis) :
    Tracks (closeBlock nested fuel) scopes before before.tokens
      fun _ later after rest => rest = after.tokens ∧ later.Within depth none after.analysis := by
  refine .bind ((manyUntil keeps fuel within).mono ?_)
  rintro statements later after rest ⟨within, brace, found, kind_eq, rest_eq⟩
  have inner : 1 < later.frames.length := by
    rw [within.depth_eq]
    omega
  refine .bind (.check fun _ => (within.describes.leaveScope_ensures inner).mono ?_ fun _ _ => False.elim)
  intro _ left describes
  have read_brace : later.read brace = .ok { later with frames := later.frames.tail } := by
    simp [LexicalScopes.read, LexicalScopes.readCode, within.place_eq, kind_eq]
  refine .read found (by simp [kind_eq]) read_brace ?_
  rw [rest_eq]
  have outside : Within depth none { later with frames := later.frames.tail } left := by
    refine ⟨within.place_eq, within.own_eq, ?_, describes⟩
    rw [List.length_tail, within.depth_eq, Nat.add_sub_cancel]
  have ends : Keeps depth none (fun _ => True) (Parser.check (Analysis.block statements)) :=
    .check (.block statements)
  exact ends _ ⟨after.tokens, left⟩ outside fun _ _ => trivial

theorem block (keeps : Keeps (depth + 1) none (fun _ => True) nested) (inside : 1 < depth) (fuel : Nat) :
    Keeps depth none (fun _ => True) (block nested fuel) := by
  intro scopes before within _
  rw [block_eq_openBlock]
  refine .bind ((Tracks.openBlock (within.opens inside)).mono ?_)
  rintro _ later after _ ⟨rfl, within⟩
  exact closeBlock keeps (by omega) fuel within

section Choices

variable (keeps : Keeps depth none (fun _ => True) nested)

include keeps

theorem ifElse (fuel : Nat) : Keeps depth none (fun _ => True) (ifElse nested fuel) :=
  (guard fuel).bind fun _ => keeps.bind fun _ => (expect rfl).bind fun _ => keeps.bind fun _ =>
    check (.ifElse _ _ _)

theorem guarded {combine : ExprId → StmtId → Check StmtId}
    (spares : ∀ guard body, SparesScopes (combine guard body)) (fuel : Nat) :
    Keeps depth none (fun _ => True) (guarded combine nested fuel) :=
  (guard fuel).bind fun _ => keeps.bind fun _ => check (spares _ _)

end Choices

end Statements

theorem statementWithin (inside : 1 < depth) (fuel : Nat) :
    Keeps depth none (fun _ => True) (statementWithin fuel) := by
  induction fuel generalizing depth with
  | zero => exact .exhausted
  | succ fuel induction =>
      refine .peek_bind fun kind => ?_
      split
      · exact (block (induction (by omega)) inside fuel).always
      · exact .next_bind (fun _ same => same ▸ rfl) fun _ => ifElse (induction inside) fuel
      · exact .next_bind (fun _ same => same ▸ rfl) fun _ =>
          guarded (induction inside) .whenTrue fuel
      · exact .next_bind (fun _ same => same ▸ rfl) fun _ =>
          guarded (induction inside) .whileTrue fuel
      · exact jump rfl .breakLoop
      · exact jump rfl .continueLoop
      · exact .next_bind (fun _ same => same ▸ rfl) fun _ => terminated .returnValue fuel
      · exact (localDeclaration _).always.bind fun declaration =>
          check (.declarationStatement declaration)
      · exact (localDeclaration _).always.bind fun declaration =>
          check (.declarationStatement declaration)
      · exact (localDeclaration _).always.bind fun declaration =>
          check (.declarationStatement declaration)
      · exact (terminated .expressionStatement _).always

end Parser.Keeps

end Minilang
