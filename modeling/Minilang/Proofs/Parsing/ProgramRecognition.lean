import Minilang.Parsing.Program
import Minilang.Proofs.Parsing.StatementRecognition
import Minilang.Proofs.Parsing.Streams

/-!
# Recognition of programs

A program that is parsed is a sentence of the grammar. Where parsing stops at a token, the tokens in front
of it begin a sentence, and together with that token they begin none.
-/

namespace Minilang

open Grammar Form

namespace Parser

variable {before : ParserState} {token : Token}

/-! ## Functions -/

theorem parameter_recognizes (fuel : Nat) (before : ParserState) :
    Recognizes (parameter fuel) before Nonterminal.parameter [] := by
  refine .nonterminal (.expectIdentifier_bind fun name => .expect_bind ?_)
  exact .bind rfl (typeWithin_recognizes fuel _) fun type after => .check (.declareParameter name type)

/-- What stands behind the name of a function. -/
def functionTail : Form :=
  sequence [sign .leftParen, optional Nonterminal.parameterList, sign .rightParen, sign .arrow,
    Nonterminal.type, Nonterminal.blockStatement]

/-- What a function is made of behind its name. -/
def functionBehind (fuel : Nat) (name : Token) : Parser DeclId := do
  expectSign .leftParen
  check Analysis.enterParameterScope
  let parameters ← parameters fuel
  expectSign .rightParen
  expectSign .arrow
  let result ← typeWithin fuel
  check Analysis.leaveScope
  let declaration ← check (Analysis.declareFunction name parameters result)
  let body ← block (statementWithin fuel) fuel
  check (Analysis.defineFunction declaration body)

theorem function_eq (fuel : Nat) : function fuel = (do
    expectWord .defWord
    let name ← expectIdentifier
    functionBehind fuel name) := rfl

/-- What stands behind the parameters of a function. -/
theorem resultAndBody_recognizes (fuel : Nat) (name : Token) (parameters : List DeclId)
    (before : ParserState) :
    Recognizes (do
      expectSign .rightParen
      expectSign .arrow
      let result ← typeWithin fuel
      check Analysis.leaveScope
      let declaration ← check (Analysis.declareFunction name parameters result)
      let body ← block (statementWithin fuel) fuel
      check (Analysis.defineFunction declaration body)) before
      (sequence [sign .rightParen, sign .arrow, Nonterminal.type, Nonterminal.blockStatement]) [] := by
  refine .expect_bind (.expect_bind (.bind rfl (typeWithin_recognizes fuel _) fun result after => ?_))
  refine .check_bind .leaveScope fun _ _ => ?_
  refine .check_bind (.declareFunction name parameters result) fun declaration after => ?_
  exact .bind rfl (block_recognizes fuel (statementWithin_recognizes fuel) after) fun body after =>
    .check (.defineFunction declaration body)

theorem functionBehind_recognizes (fuel : Nat) (name : Token) (before : ParserState) :
    Recognizes (functionBehind fuel name) before functionTail [] := by
  refine .expect_bind (.check_bind .enterParameterScope fun _ after => .of_found fun token found => ?_)
  rw [parameters, bind_assoc]
  by_cases closed : token.kind = .punctuation .rightParen
  · refine .optional_seq_none found closed rfl rfl (.peek_bind fun other found_other => ?_)
    cases found.symm.trans found_other
    rw [closed]
    exact resultAndBody_recognizes fuel name [] after
  · refine .optional_seq_some found closed (.peek_bind fun other found_other => ?_)
    cases found.symm.trans found_other
    have items : Recognizes (sepByComma (parameter fuel) fuel) after Nonterminal.parameterList
        [.oneOf (.punctuation .comma) []] :=
      .nonterminal (.sepByComma fuel rfl rfl (parameter_recognizes fuel) after)
    split
    · next spelled => exact absurd spelled closed
    · exact .bind rfl items fun parameters after => resultAndBody_recognizes fuel name parameters after

/-! ## Declarations at the top -/

/-- What a `def` declares is told by what stands behind the name. -/
theorem language_declaration :
    language (Form.choice Nonterminal.variableDefinition [Nonterminal.constantDefinition,
        .seq (word .defWord) (.seq Terminal.identifier (Form.choice objectTail [functionTail]))]) =
      language (rule .declaration) := by
  have value_words : language Nonterminal.valueDefinition =
      language (word .defWord) * (language Terminal.identifier * language objectTail) := by
    rw [language_nonterminal, ← language_seq, ← language_seq]
    rfl
  have function_words : language Nonterminal.functionDefinition =
      language (word .defWord) * (language Terminal.identifier * language functionTail) := by
    rw [language_nonterminal, ← language_seq, ← language_seq]
    rfl
  rw [rule]
  simp only [Form.choice, language_either, language_seq, value_words, function_words, mul_add]

theorem declaration_recognizes (fuel : Nat) (before : ParserState) :
    Recognizes (declaration fuel) before Nonterminal.declaration [] := by
  refine .nonterminal (.congr language_declaration (.peek_bind fun token found => ?_))
  cases spelled : token.kind with
  | keyword word =>
      cases word with
      | varWord =>
          exact .choice 0 rfl found spelled rfl (.nonterminal (object_recognizes .var fuel before))
      | letWord =>
          exact .choice 1 rfl found spelled rfl (.nonterminal (object_recognizes .const fuel before))
      | defWord =>
          refine .choice 2 rfl found spelled rfl (.lookahead_bind fun third found_third => ?_)
          have found_behind : before.advanced.advanced.tokens.lookahead 0 = .ok third := by
            rw [← found_third, ← TokenStream.lookahead_rest, ← TokenStream.lookahead_rest]
            rfl
          split
          · next colon =>
            refine object_recognizes_of fun name => ?_
            exact .choice 0 rfl found_behind colon rfl (objectBehind_recognizes .value fuel name _)
          · next opened =>
            rw [function_eq]
            exact .expect_bind (.expectIdentifier_bind fun name =>
              .choice 1 rfl found_behind opened rfl (functionBehind_recognizes fuel name _))
          · next no_colon not_opened =>
            refine misplacedDefinition_recognizes _ found spelled found_third rfl ?_
            simpa [starts, Form.choice, objectTail, functionTail, Form.sequence, Form.first,
              Form.nullable, sign, Form.token, Terminal.admits] using ⟨no_colon, not_opened⟩
      | _ => exact .unexpected found rfl (by rw [spelled]; rfl)
  | _ => exact .unexpected found rfl (by rw [spelled]; rfl)

/-! ## Programs -/

/-- All kinds of tokens but the end of input. -/
def allButEnd : List Terminal :=
  (TokenKind.reservedWords ++ TokenKind.longOperators ++ TokenKind.shortOperators).map
    (Terminal.oneOf · []) ++ [.identifier, .integer, .float, .character, .string]

theorem bars_allButEnd (kind : TokenKind) : bars allButEnd kind = decide (kind ≠ .endOfInput) := by
  cases kind with
  | punctuation sign => cases sign <;> rfl
  | relational operator => cases operator <;> rfl
  | arithmetic operator => cases operator <;> rfl
  | bitwise operator => cases operator <;> rfl
  | logical operator => cases operator <;> rfl
  | keyword word => cases word <;> rfl
  | basicType type => cases type <;> rfl
  | boolean value => cases value <;> rfl
  | _ => rfl

theorem declarations_recognizes (limit fuel : Nat) (before : ParserState) :
    Recognizes (declarations (declaration limit) fuel) before (many Nonterminal.declaration)
      allButEnd := by
  induction fuel generalizing before with
  | zero => exact .exhausted
  | succ fuel induction =>
      refine .peek_bind fun token found => ?_
      by_cases end_reached : token.kind = .endOfInput
      · rw [end_reached]
        exact .many_none found (by rw [end_reached]; rfl) (.pure [])
      · have stopped : bars allButEnd token.kind = true := by
          rw [bars_allButEnd]
          exact decide_eq_true end_reached
        refine .many_more found stopped ?_
        split
        · next spelled => exact absurd spelled end_reached
        · exact .bind (by decide) (declaration_recognizes limit before) fun first after =>
            (induction after).bind_pure _

/-- A parser that looks at the next token and succeeds has found one. -/
theorem exists_found_of_peek {α : Type} {next : TokenKind → Parser α}
    {outcome : α × ParserState} (run : (peek >>= next).run before = .ok outcome) :
    ∃ token, before.tokens.lookahead 0 = .ok token ∧ (next token.kind).run before = .ok outcome := by
  cases found : before.tokens.lookahead 0 with
  | error error =>
      have failed : peek.run before = .error error := by
        rw [peek, run_bind, lookahead, run_bind, StateT.run_get]
        simp only [Pure.pure, Except.pure, found]
        rfl
      rw [run_bind, failed] at run
      cases run
  | ok token =>
      have peeked : peek.run before = .ok (token.kind, before) := by
        rw [peek, run_bind, run_lookahead found]
        rfl
      rw [run_bind, peeked] at run
      exact ⟨token, rfl, run⟩

/-- Declarations are read up to the end of input. -/
theorem declarations_end {item : Parser DeclId} {fuel : Nat} {after : ParserState}
    {ids : List DeclId} (run : (declarations item fuel).run before = .ok (ids, after)) :
    ∃ last, after.tokens.lookahead 0 = .ok last ∧ last.kind = .endOfInput := by
  induction fuel generalizing before ids with
  | zero => cases run
  | succ fuel induction =>
      obtain ⟨token, found, run⟩ := exists_found_of_peek run
      split at run
      · next end_reached =>
        cases run
        exact ⟨token, found, end_reached⟩
      · rw [run_bind] at run
        split at run
        · next first middle _ =>
          rw [run_bind] at run
          split at run
          · next rest last run_rest =>
            cases run
            exact induction run_rest
          · cases run
        · cases run

theorem program_recognizes (name : String) (fuel : Nat) (before : ParserState) :
    Recognizes (program name fuel) before (many Nonterminal.declaration) allButEnd := by
  refine .check_bind .enterGlobalScope fun _ entered => .of_seq_empty ?_
  refine .bind (by decide) (declarations_recognizes fuel fuel entered) fun ids after => ?_
  exact .check_bind .leaveScope fun _ _ => .check (.addProgram name ids)

/-- A step of analysis consumes no token. -/
theorem tokens_eq_of_check {α : Type} {step : Check α} {result : α} {after : ParserState}
    (run : (check step).run before = .ok (result, after)) : after.tokens = before.tokens := by
  unfold Parser.check at run
  simp only [StateT.run] at run
  split at run
  · cases run
    rfl
  · cases run

theorem program_end {name : String} {fuel : Nat} {after : ParserState} {root : DeclId}
    (run : (program name fuel).run before = .ok (root, after)) :
    ∃ last, after.tokens.lookahead 0 = .ok last ∧ last.kind = .endOfInput := by
  rw [program, run_bind] at run
  split at run
  · next entered _ =>
    rw [run_bind] at run
    split at run
    · next ids middle run_items =>
      obtain ⟨last, found, end_reached⟩ := declarations_end run_items
      rw [run_bind] at run
      split at run
      · next left run_leave =>
        rw [tokens_eq_of_check run, tokens_eq_of_check run_leave]
        exact ⟨last, found, end_reached⟩
      · cases run
    · cases run
  · cases run

end Parser

namespace Grammar

open Minilang.Parser (allButEnd)

theorem mem_sentences {kinds : List TokenKind} :
    kinds ∈ sentences ↔ ∃ word ∈ language (many Nonterminal.declaration),
      kinds = word ++ [.endOfInput] := by
  rw [sentences, language_nonterminal, rule, language_sequence_cons, language_sequence_cons,
    language_sequence_nil, mul_one, Language.mem_mul]
  constructor
  · rintro ⟨word, member, last, last_member, rfl⟩
    obtain ⟨kind, admitted, rfl⟩ := mem_language_terminal.1 last_member
    obtain rfl : kind = .endOfInput := by simpa [Terminal.admits] using admitted
    exact ⟨word, member, rfl⟩
  · rintro ⟨word, member, rfl⟩
    exact ⟨word, member, [.endOfInput], .terminal rfl, rfl⟩

/-- Tokens in front of the end of input begin a sentence if they begin a word of declarations. -/
theorem viable_of_begins {seen word : List TokenKind}
    (member : word ∈ language (many Nonterminal.declaration)) (begins : seen <+: word) :
    Viable seen :=
  ⟨word ++ [.endOfInput], mem_sentences.2 ⟨word, member, rfl⟩,
    begins.trans (List.prefix_append _ _)⟩

theorem not_viable_of_stopped {seen : List TokenKind}
    (excluded : ∀ word, word ∉ candidates (many Nonterminal.declaration) allButEnd seen) :
    ¬ Viable seen := by
  rintro ⟨sentence, member, begins⟩
  obtain ⟨word, word_member, rfl⟩ := mem_sentences.1 member
  refine excluded word ⟨word_member, [.endOfInput], ?_, begins⟩
  rintro kind others ⟨⟩
  rfl

/-- No declaration contains the end of input. -/
theorem endOfInput_notMem_of_begins {seen word : List TokenKind}
    (member : word ∈ language (many Nonterminal.declaration)) (begins : seen <+: word) :
    TokenKind.endOfInput ∉ seen := fun in_seen =>
  Derives.endOfInput_notMem member rfl (begins.subset in_seen)

end Grammar

open Minilang.Parser

variable {source : Source} {tokens : List Token}

theorem parse_sentence (tokenized : tokenize source = .ok tokens) {program : Program}
    (parsed : parse source = .ok program) : tokens.map Token.kind ∈ sentences := by
  obtain ⟨stream_eq, ended⟩ := TokenStream.ofSource_eq_ofTokens tokenized
  rw [parse, parseStream, stream_eq] at parsed
  split at parsed
  · next root after run =>
    have fits := program_recognizes source.name
      ((TokenStream.ofTokens tokens).length + 1) ⟨.ofTokens tokens, .initial⟩ ended.complete
    obtain ⟨last, found, end_reached⟩ := program_end run
    rw [run] at fits
    obtain ⟨word, member, reads, -⟩ := fits
    obtain ⟨word_eq, after_eq, rest_ended⟩ :=
      ended.reads reads (endOfInput_notMem_of_begins member List.prefix_rfl)
    rw [after_eq] at found
    have head_eq := rest_ended.head?_eq found
    refine mem_sentences.2 ⟨word, member, ?_⟩
    cases rest_eq : tokens.drop word.length with
    | nil => exact absurd rest_eq rest_ended.ne_nil
    | cons first rest =>
        rw [rest_eq] at head_eq rest_ended
        cases head_eq
        cases rest_ended with
        | more more => exact absurd end_reached more
        | last =>
            conv_lhs => rw [← List.take_append_drop word.length tokens, List.map_append, rest_eq]
            rw [← word_eq, List.map_singleton, end_reached]
  · cases parsed

theorem parse_stops (tokenized : tokenize source = .ok tokens) {location : Location}
    {expected : Expectation} {found : TokenKind}
    (failed : parse source = .error (.unexpected location expected found)) :
    ∃ index, tokens[index]? = some ⟨found, location⟩ ∧
      Viable ((tokens.take index).map Token.kind) ∧
      ¬ Viable ((tokens.take (index + 1)).map Token.kind) := by
  obtain ⟨stream_eq, ended⟩ := TokenStream.ofSource_eq_ofTokens tokenized
  rw [parse, parseStream, stream_eq] at failed
  split at failed
  · cases failed
  · next error run =>
    cases failed
    have fits := program_recognizes source.name
      ((TokenStream.ofTokens tokens).length + 1) ⟨.ofTokens tokens, .initial⟩ ended.complete
    rw [run] at fits
    obtain ⟨seen, after, reads, found_token, ⟨word, member, begins⟩, excluded⟩ := fits
    obtain ⟨seen_eq, after_eq, rest_ended⟩ :=
      ended.reads reads (endOfInput_notMem_of_begins member begins)
    rw [after_eq] at found_token
    have token_eq : tokens[seen.length]? = some ⟨found, location⟩ := by
      rw [← rest_ended.head?_eq found_token, List.head?_drop]
    refine ⟨seen.length, token_eq, ?_, ?_⟩
    · rw [← seen_eq]
      exact viable_of_begins member begins
    · rw [List.take_add_one, token_eq, List.map_append, ← seen_eq]
      exact not_viable_of_stopped excluded

/-- The parser accepts its grammar: a text that is parsed is a sentence, no sentence is rejected for how it
is spelled, and a text that is rejected so is rejected at the first token with which the tokens in front of
it begin no sentence. -/
theorem parse_follows_grammar (tokenized : tokenize source = .ok tokens) :
    (∀ program, parse source = .ok program → tokens.map Token.kind ∈ sentences) ∧
    (tokens.map Token.kind ∈ sentences → ∀ location expected found,
      parse source ≠ .error (.unexpected location expected found)) ∧
    ∀ location expected found, parse source = .error (.unexpected location expected found) →
      ∃ index, tokens[index]? = some ⟨found, location⟩ ∧
        Viable ((tokens.take index).map Token.kind) ∧
        ¬ Viable ((tokens.take (index + 1)).map Token.kind) := by
  refine ⟨fun program => parse_sentence tokenized, fun sentence location expected found failed => ?_,
    fun location expected found => parse_stops tokenized⟩
  obtain ⟨index, -, -, not_viable⟩ := parse_stops tokenized failed
  exact not_viable ⟨_, sentence, (List.take_prefix _ _).map _⟩

/-- A program in which a parenthesis is left open. -/
def openParenthesis : Source := ⟨"t", "def f() -> int { return (1; }"⟩

theorem parse_follows_grammar_of_openParenthesis :
    ∃ tokens, tokenize openParenthesis = .ok tokens ∧
      ∃ index, tokens[index]? = some ⟨.punctuation .semicolon, .inFile "t" ⟨1, 27⟩⟩ ∧
        Viable ((tokens.take index).map Token.kind) ∧
        ¬ Viable ((tokens.take (index + 1)).map Token.kind) := by
  have reads : (tokenize openParenthesis).toOption.isSome = true := by decide +kernel
  have stops : parse openParenthesis = .error (.unexpected (.inFile "t" ⟨1, 27⟩)
      (.token (.punctuation .rightParen)) (.punctuation .semicolon)) := by
    decide +kernel
  cases tokenized : tokenize openParenthesis with
  | error error =>
      rw [tokenized] at reads
      cases reads
  | ok tokens =>
      exact ⟨tokens, rfl, (parse_follows_grammar tokenized).2.2 _ _ _ stops⟩

end Minilang
