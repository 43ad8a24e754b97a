import Minilang.Proofs.Analysis.Frames
import Minilang.Proofs.Parsing.JoinedPrograms
import Minilang.Proofs.Parsing.ScopedPrograms

/-!
# Blocks are always started

At the start of the body of a function its parameters are declared again, which would fail for a name that
is there twice. It never does: the names have been declared apart before, and every other block starts with
nothing. So a parser in which this step does something else where it fails parses all texts alike.

This is the last of what is said about failing actions in `actions_append`: all other ones leave the scopes
alone when they fail.
-/

namespace Minilang

namespace Parser

/-! ## Parsers with another step at the start of a block -/

section Start

variable (start : Check Unit)

/-- Statements in braces, with a step at their start. -/
def blockFrom (nested : Parser StmtId) (fuel : Nat) : Parser StmtId := do
  expectSign .leftBrace
  check Analysis.enterBlockScope
  check start
  let statements ← manyUntil .rightBrace nested fuel
  check Analysis.leaveScope
  check (Analysis.block statements)

/-- A statement, with a step at the start of every block. -/
def statementFrom : (fuel : Nat) → Parser StmtId
  | 0 => exhausted
  | fuel + 1 => do
    match ← peek with
    | .punctuation .leftBrace => blockFrom start (statementFrom fuel) fuel
    | .keyword .ifWord => do
      let _ ← next
      ifElse (statementFrom fuel) fuel
    | .keyword .whenWord => do
      let _ ← next
      guarded Analysis.whenTrue (statementFrom fuel) fuel
    | .keyword .whileWord => do
      let _ ← next
      guarded Analysis.whileTrue (statementFrom fuel) fuel
    | .keyword .breakWord => jump Analysis.breakLoop
    | .keyword .continueWord => jump Analysis.continueLoop
    | .keyword .returnWord => do
      let _ ← next
      terminated Analysis.returnValue fuel
    | .keyword .varWord | .keyword .letWord | .keyword .defWord => do
      let declaration ← localDeclaration (fuel + 1)
      check (Analysis.declarationStatement declaration)
    | _ => terminated Analysis.expressionStatement (fuel + 1)

/-- A function, with a step at the start of every block. -/
def functionFrom (fuel : Nat) : Parser DeclId := do
  let declaration ← heading fuel
  let body ← blockFrom start (statementFrom start fuel) fuel
  check (Analysis.defineFunction declaration body)

/-- A declaration at the top of a program, with a step at the start of every block. -/
def declarationFrom (fuel : Nat) : Parser DeclId := do
  match ← peek with
  | .keyword .varWord => object .var fuel
  | .keyword .letWord => object .const fuel
  | .keyword .defWord =>
    match (← lookahead 2).kind with
    | .punctuation .colon => object .value fuel
    | .punctuation .leftParen => functionFrom start fuel
    | _ => misplacedDefinition .colonOrParameters
  | _ => unexpected .declaration

/-- A whole program, with a step at the start of every block. -/
def programFrom (name : String) (fuel : Nat) : Parser DeclId := do
  check Analysis.enterGlobalScope
  let declarations ← declarations (declarationFrom start fuel) fuel
  check Analysis.leaveScope
  check (Analysis.addProgram name declarations)

end Start

theorem blockFrom_eq (start : Check Unit) (nested : Parser StmtId) (fuel : Nat) :
    blockFrom start nested fuel = (do openBlock start; closeBlock nested fuel) := by
  simp only [blockFrom, openBlock, closeBlock, bind_assoc]

/-! ## Parsers that agree -/

/-- Whether a parser has come to a token outside of what introduces a declaration, in a number of frames. -/
def Inside (depth : Nat) (state : ParserState) : Prop :=
  state.tokens.Proper ∧ ∃ scopes : LexicalScopes, scopes.Within depth none state.analysis

/-- Whether two parsers do the same from such places. -/
def Agrees {α : Type} (depth : Nat) (parser other : Parser α) : Prop :=
  ∀ before, Inside depth before → parser.run before = other.run before

/-- Whether a parser leads from such places to such places. -/
def Stays {α : Type} (depth : Nat) (parser : Parser α) : Prop :=
  ∀ before result after, Inside depth before → parser.run before = .ok (result, after) →
    Inside depth after

section Agreement

variable {α β : Type} {depth : Nat} {parser other : Parser α}

theorem Keeps.stays (keeps : Keeps depth none (fun _ => True) parser) : Stays depth parser := by
  intro before result after ⟨proper, scopes, within⟩ run
  have tracks := keeps scopes before within (fun _ _ => trivial) proper
  rw [run] at tracks
  obtain ⟨later, rest, advances, rfl, within⟩ := tracks
  exact ⟨advances.proper proper, later, within⟩

theorem Inside.advanced {state : ParserState} (inside : Inside depth state) :
    Inside depth state.advanced := ⟨inside.1.rest, inside.2⟩

theorem stays_peek : Stays depth peek := by
  intro before kind after inside run
  rw [← peek_ok run]
  exact inside

theorem stays_lookahead (distance : Nat) : Stays depth (lookahead distance) := by
  intro before token after inside run
  rw [← (lookahead_ok run).2]
  exact inside

theorem stays_consumeIf (accepts : TokenKind → Bool) : Stays depth (consumeIf accepts) := by
  intro before found after inside run
  obtain ⟨token, -, outcome⟩ := consumeIf_ok run
  split at outcome
  · rw [(Prod.mk.inj outcome).2]
    exact inside.advanced
  · rw [(Prod.mk.inj outcome).2]
    exact inside

theorem Agrees.refl (parser : Parser α) : Agrees depth parser parser := fun _ _ => rfl

theorem Agrees.bind {first otherFirst : Parser β} {next otherNext : β → Parser α}
    (agrees : Agrees depth first otherFirst) (stays : Stays depth otherFirst)
    (rest : ∀ result, Agrees depth (next result) (otherNext result)) :
    Agrees depth (first >>= next) (otherFirst >>= otherNext) := by
  intro before inside
  rw [run_bind, run_bind, agrees before inside]
  cases run : otherFirst.run before with
  | error error => rfl
  | ok outcome => exact rest outcome.1 outcome.2 (stays before _ _ inside run)

/-- Behind the same parser, parsers that agree may follow. -/
theorem Agrees.behind {first : Parser β} {next otherNext : β → Parser α} (stays : Stays depth first)
    (rest : ∀ result, Agrees depth (next result) (otherNext result)) :
    Agrees depth (first >>= next) (first >>= otherNext) :=
  (Agrees.refl first).bind stays rest

/-- In front of the same parser, parsers that agree may stand. -/
theorem Agrees.followed {first otherFirst : Parser β} (agrees : Agrees depth first otherFirst)
    (next : β → Parser α) : Agrees depth (first >>= next) (otherFirst >>= next) := by
  intro before inside
  rw [run_bind, run_bind, agrees before inside]

theorem Stays.bind {first : Parser β} {next : β → Parser α} (stays : Stays depth first)
    (rest : ∀ result, Stays depth (next result)) : Stays depth (first >>= next) := by
  intro before result after inside run
  obtain ⟨given, middle, ran, run⟩ := run_bind_ok run
  exact rest given middle result after (stays before given middle inside ran) run

theorem stays_pure (result : α) : Stays depth (pure result) := by
  intro before given after inside run
  cases run
  exact inside

theorem stays_next : Stays depth next := by
  intro before token after inside run
  obtain ⟨seen, middle, looked, run⟩ := run_bind_ok run
  obtain ⟨-, rfl⟩ := lookahead_ok looked
  cases run
  exact inside.advanced

theorem stays_consume (kind : TokenKind) : Stays depth (consume kind) :=
  (stays_consumeIf _).bind fun _ => stays_pure _

end Agreement

section Blocks

variable {start : Check Unit} {depth : Nat} {nested other : Parser StmtId}

/-- Whether a step does what is done at the start of a block wherever this succeeds. -/
def StartsBlocks (start : Check Unit) : Prop :=
  ∀ before after, Analysis.startBlock.run before = (.ok (), after) →
    start.run before = (.ok (), after)

/-- Where a block can be opened, its start succeeds. -/
theorem openBlock_run (starts : StartsBlocks start) {scopes : LexicalScopes} {before : ParserState}
    (opens : scopes.Opens depth before.analysis) :
    (openBlock start).run before = (openBlock Analysis.startBlock).run before := by
  rw [openBlock, openBlock, run_bind, run_bind]
  cases run : (expectSign .leftBrace).run before with
  | error error => rfl
  | ok outcome =>
      obtain ⟨⟨⟩, middle⟩ := outcome
      have analysis_eq : middle.analysis = before.analysis := by
        rw [expect_ok run]
        rfl
      have entered : (check Analysis.enterBlockScope).run middle =
          .ok ((), ⟨middle.tokens, before.analysis.withScopes (before.analysis.scopes.push .block)⟩) := by
        apply run_check_of_ok
        rw [analysis_eq]
        rfl
      dsimp only
      rw [run_bind_of_ok entered, run_bind_of_ok entered]
      obtain ⟨later, -, ensures⟩ := opens ⟨.punctuation .leftBrace, .unknown⟩ rfl
      rw [Analysis.Ensures] at ensures
      split at ensures
      · next started run =>
        let entrance : ParserState :=
          ⟨middle.tokens, before.analysis.withScopes (before.analysis.scopes.push .block)⟩
        have taken : (check Analysis.startBlock).run entrance = _ := run_check_of_ok run
        have alike : (check start).run entrance = _ := run_check_of_ok (starts _ _ run)
        exact alike.trans taken.symm
      · exact ensures.elim

theorem openBlock_inside {scopes : LexicalScopes} {before after : ParserState}
    (opens : scopes.Opens depth before.analysis) (proper : before.tokens.Proper)
    (run : (openBlock Analysis.startBlock).run before = .ok ((), after)) : Inside depth after := by
  have tracks := Tracks.openBlock opens proper
  rw [run] at tracks
  obtain ⟨later, rest, advances, rfl, within⟩ := tracks
  exact ⟨advances.proper proper, later, within⟩

theorem manyUntil_agrees (agrees : Agrees depth nested other) (stays : Stays depth other)
    (closing : Punctuation) (fuel : Nat) :
    Agrees depth (manyUntil closing nested fuel) (manyUntil closing other fuel) := by
  induction fuel with
  | zero => exact .refl _
  | succ fuel induction =>
      rw [manyUntil, manyUntil]
      apply Agrees.behind (stays_consume _)
      intro closed
      cases closed with
      | true => exact .refl _
      | false =>
          apply agrees.bind stays
          intro first
          exact induction.followed _

theorem closeBlock_agrees (agrees : Agrees depth nested other) (stays : Stays depth other) (fuel : Nat) :
    Agrees depth (closeBlock nested fuel) (closeBlock other fuel) :=
  (manyUntil_agrees agrees stays .rightBrace fuel).followed _

/-- Where a block can be opened, its start makes no difference. -/
theorem blockFrom_run (starts : StartsBlocks start) (agrees : Agrees depth nested other)
    (stays : Stays depth other) (fuel : Nat) {scopes : LexicalScopes} {before : ParserState}
    (opens : scopes.Opens depth before.analysis) (proper : before.tokens.Proper) :
    (blockFrom start nested fuel).run before = (block other fuel).run before := by
  rw [blockFrom_eq, block_eq_openBlock, run_bind, run_bind, openBlock_run starts opens]
  cases run : (openBlock Analysis.startBlock).run before with
  | error error => rfl
  | ok outcome =>
      exact closeBlock_agrees agrees stays fuel outcome.2 (openBlock_inside opens proper run)

theorem ifElse_agrees (agrees : Agrees depth nested other) (stays : Stays depth other) (fuel : Nat) :
    Agrees depth (ifElse nested fuel) (ifElse other fuel) := by
  apply Agrees.behind (Keeps.guard fuel).stays
  intro condition
  apply agrees.bind stays
  intro whenTrue
  apply Agrees.behind (Keeps.expect rfl).stays
  intro _
  exact agrees.followed _

theorem guarded_agrees (combine : ExprId → StmtId → Check StmtId) (agrees : Agrees depth nested other)
    (fuel : Nat) : Agrees depth (guarded combine nested fuel) (guarded combine other fuel) := by
  apply Agrees.behind (Keeps.guard fuel).stays
  intro condition
  exact agrees.followed _

theorem declarations_agrees {item otherItem : Parser DeclId} (agrees : Agrees depth item otherItem)
    (stays : Stays depth otherItem) (fuel : Nat) :
    Agrees depth (declarations item fuel) (declarations otherItem fuel) := by
  induction fuel with
  | zero => exact .refl _
  | succ fuel induction =>
      rw [declarations, declarations]
      apply Agrees.behind stays_peek
      intro kind
      split
      · exact .refl _
      · apply agrees.bind stays
        intro first
        exact induction.followed _

end Blocks

section Programs

variable {start : Check Unit} (starts : StartsBlocks start)

include starts

/-- Within a function, statements are parsed alike. -/
theorem statementFrom_agrees {depth : Nat} (inside : 1 < depth) (fuel : Nat) :
    Agrees depth (statementFrom start fuel) (statementWithin fuel) := by
  induction fuel generalizing depth with
  | zero => exact .refl _
  | succ fuel induction =>
      have nested := induction inside
      have stays : Stays depth (statementWithin fuel) := (Keeps.statementWithin inside fuel).stays
      rw [statementFrom, statementWithin]
      apply Agrees.behind stays_peek
      intro kind
      cases kind with
      | punctuation sign =>
          cases sign
          case leftBrace =>
            rintro before ⟨proper, scopes, within⟩
            have inner : 1 < depth + 1 := by omega
            exact blockFrom_run starts (induction inner) (Keeps.statementWithin inner fuel).stays fuel
              (within.opens inside) proper
          all_goals exact .refl _
      | keyword word =>
          cases word
          case ifWord => exact .behind stays_next fun _ => ifElse_agrees nested stays fuel
          case whenWord => exact .behind stays_next fun _ => guarded_agrees _ nested fuel
          case whileWord => exact .behind stays_next fun _ => guarded_agrees _ nested fuel
          all_goals exact .refl _
      | _ => exact .refl _

/-- The body of a function is parsed alike, with its parameters declared in it. -/
theorem functionFrom_agrees (fuel : Nat) : Agrees 1 (functionFrom start fuel) (function fuel) := by
  intro before ⟨proper, scopes, within⟩
  rw [functionFrom, function_eq_heading, run_bind, run_bind]
  have tracks := heading_tracks fuel before within proper
  cases run : (heading fuel).run before with
  | error error => rfl
  | ok outcome =>
      rw [run] at tracks
      obtain ⟨later, rest, advances, rfl, awaits⟩ := tracks
      have inner : 1 < 2 := by decide
      dsimp only
      rw [run_bind, run_bind, blockFrom_run starts (statementFrom_agrees starts inner fuel)
        (Keeps.statementWithin inner fuel).stays fuel awaits.opens (advances.proper proper)]

theorem declarationFrom_agrees (fuel : Nat) :
    Agrees 1 (declarationFrom start fuel) (declaration fuel) := by
  rw [declarationFrom, declaration]
  apply Agrees.behind stays_peek
  intro kind
  cases kind with
  | keyword word =>
      cases word
      case defWord =>
        apply Agrees.behind (stays_lookahead 2)
        rintro ⟨kind, location⟩
        cases kind with
        | punctuation sign =>
            cases sign
            case leftParen => exact functionFrom_agrees starts fuel
            all_goals exact .refl _
        | _ => exact .refl _
      all_goals exact .refl _
  | _ => exact .refl _

/-- A whole program is parsed alike. -/
theorem programFrom_run (name : String) (fuel : Nat) {tokens : TokenStream} (proper : tokens.Proper) :
    (programFrom start name fuel).run ⟨tokens, .initial⟩ =
      (program name fuel).run ⟨tokens, .initial⟩ := by
  have entered : (check Analysis.enterGlobalScope).run ⟨tokens, .initial⟩ =
      .ok ((), ⟨tokens, Analysis.initial.withScopes (Analysis.initial.scopes.push .global)⟩) :=
    run_check_of_ok rfl
  have inside : Inside 1 ⟨tokens, Analysis.initial.withScopes (Analysis.initial.scopes.push .global)⟩ :=
    ⟨proper, .start, rfl, rfl, rfl, rfl, ⟨0, rfl⟩, .initial⟩
  rw [programFrom, program, run_bind_of_ok entered, run_bind_of_ok entered]
  exact (declarations_agrees (declarationFrom_agrees starts fuel)
    (Keeps.declaration fuel).stays fuel).followed _ _ inside

end Programs

end Parser

/-- Parse and analyze a text, with a step at the start of every block. -/
def parseFrom (start : Check Unit) (source : Source) : Except Diagnostic Program :=
  let tokens := TokenStream.ofSource source
  match StateT.run (Parser.programFrom start source.name (tokens.length + 1)) ⟨tokens, .initial⟩ with
  | .ok (root, state) => .ok (state.analysis.program root)
  | .error error => .error error

/-- It does not matter what would be done where a block cannot be started. -/
theorem parseFrom_eq_parse {start : Check Unit} (starts : Parser.StartsBlocks start) (source : Source) :
    parseFrom start source = parse source := by
  have run := Parser.programFrom_run starts source.name ((TokenStream.ofSource source).length + 1)
    (TokenStream.readBy_ofSource source).proper
  rw [parseFrom, run]
  rfl

/-! ## Actions only append -/

/-- An action leaves all expressions and statements as they were, and the declarations as well, but for one
that a successful definition gives what it did not have. In a whole run no declaration is completed twice. An
action that fails leaves the scopes and the function being defined alone, unless it is the start of a block;
and no text makes this fail, as it does not matter what would be done then. -/
theorem actions_append :
    (∀ (action : Analysis.Action) (before : Analysis), action.Allocated before →
      action.Leaves (action.run before).1 before (action.run before).2) ∧
    (∀ (actions : List Analysis.Action) (before : Analysis), Analysis.AllAllocated actions before →
      (Analysis.completions actions (Analysis.runAll actions before).1).Nodup) ∧
    ∀ start : Check Unit, Parser.StartsBlocks start →
      ∀ source, parseFrom start source = parse source := by
  refine ⟨?_, ?_, ?_⟩
  · intro action before allocated
    exact action.run_leaves allocated
  · intro actions before allocated
    exact (Analysis.completions_nodup allocated).1
  · intro start starts source
    exact parseFrom_eq_parse starts source

/-- The start of a block, behind which analysis goes on even if it fails. -/
def startIfPossible : Check Unit := tryCatch Analysis.startBlock fun _ => pure ()

theorem startIfPossible_starts : Parser.StartsBlocks startIfPossible := by
  intro before after run
  rw [ExceptT.run] at run
  simp only [startIfPossible, tryCatch, tryCatchThe, MonadExceptOf.tryCatch, ExceptT.tryCatch,
    ExceptT.run, ExceptT.mk, bind, StateT.bind, run]
  rfl

/-- A second initializer is refused and leaves everything as it was. A function with two parameters is parsed
with a start of blocks that cannot fail, but not with one that always fails. -/
theorem actions_append_of_second_initializer :
    let declared : List Analysis.Action := [.enterGlobalScope,
      .declareObject .var ⟨.identifier "a", .unknown⟩ .int,
      .integerLiteral ⟨.integer 1 .decimal, .unknown⟩]
    let define : Analysis.Action := .defineObject ⟨0⟩ ⟨0⟩
    let once := (Analysis.runAll (declared ++ [define]) .initial).2
    let twice := declared ++ [define, define]
    let source : Source := ⟨"t", "def f(a: int, b: int) -> int { return a; }"⟩
    (define.run once).1.isOk = false ∧ define.Leaves (define.run once).1 once (define.run once).2 ∧
      Analysis.completions twice (Analysis.runAll twice .initial).1 = [⟨0⟩] ∧
      (Analysis.completions twice (Analysis.runAll twice .initial).1).Nodup ∧
      parseFrom startIfPossible source = parse source ∧ (parse source).isOk = true ∧
      (parseFrom (throw (.internal .nestingTooDeep)) source).isOk = false := by
  intro declared define once twice source
  exact ⟨by decide +kernel, actions_append.1 define once (by decide +kernel), by decide +kernel,
    actions_append.2.1 twice .initial (by decide +kernel),
    actions_append.2.2 startIfPossible startIfPossible_starts source, by decide +kernel,
    by decide +kernel⟩

end Minilang
