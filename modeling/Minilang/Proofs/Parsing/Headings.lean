import Minilang.Proofs.Analysis.Retention
import Minilang.Proofs.Parsing.Actions
import Minilang.Proofs.Parsing.GlobalObjects
import Minilang.Proofs.Parsing.ProgramRecognition

/-!
# Headings

What a program declares at its top can be read off its tokens without parsing them. A declaration at the top
begins with its word, its name and the sign behind it, and such words stand outside all braces nowhere else.
-/

namespace Minilang

/-- What a declaration at the top introduces. -/
inductive Entity where
  /-- An object that can be assigned. -/
  | variable
  /-- An object that cannot. -/
  | constant
  /-- A function. -/
  | function
deriving DecidableEq, Repr

/-- What tokens introduce that begin with the word of a declaration, and its name. -/
def heading? : List TokenKind → Option (Entity × String)
  | .keyword .varWord :: .identifier name :: _ => some (.variable, name)
  | .keyword .letWord :: .identifier name :: _ => some (.constant, name)
  | .keyword .defWord :: .identifier name :: .punctuation .leftParen :: _ => some (.function, name)
  | .keyword .defWord :: .identifier name :: _ => some (.constant, name)
  | _ => none

/-- How many braces are open behind a token. -/
def braces (depth : Nat) : TokenKind → Nat
  | .punctuation .leftBrace => depth + 1
  | .punctuation .rightBrace => depth - 1
  | _ => depth

/-- What tokens introduce outside all braces, when some braces have been opened before them. -/
def headings : (depth : Nat) → List TokenKind → List (Entity × String)
  | _, [] => []
  | depth, kind :: others =>
    (if depth = 0 then (heading? (kind :: others)).toList else []) ++
      headings (braces depth kind) others

/-- Whether a token is the word of a declaration. -/
def TokenKind.opens : TokenKind → Bool
  | keyword .varWord | keyword .letWord | keyword .defWord => true
  | _ => false

theorem heading?_eq_none {kind : TokenKind} (opens : kind.opens = false) (others : List TokenKind) :
    heading? (kind :: others) = none := by
  unfold heading?
  split <;> simp_all [TokenKind.opens]

/-- A token that opens no declaration outside all braces counts for its brace at most. -/
theorem headings_cons {depth : Nat} {kind : TokenKind} (inner : depth = 0 → kind.opens = false)
    (others : List TokenKind) : headings depth (kind :: others) = headings (braces depth kind) others := by
  rw [headings]
  split
  · next outside => rw [heading?_eq_none (inner outside), Option.toList_none, List.nil_append]
  · rfl

/-! ## Headings of words of the grammar -/

namespace Grammar

open Form Nonterminal

/-- Whether the words of a rule introduce nothing and close their braces, when some are open. -/
def Nonterminal.Fits (depth : Nat) : Nonterminal → Prop
  | .program | .declaration | .functionDefinition => False
  | .statement | .localDeclaration | .variableDefinition | .constantDefinition | .valueDefinition =>
    0 < depth
  | _ => True

/-- Whether tokens introduce nothing, and how many braces are open before and behind them. -/
def Terminal.Lifts (terminal : Terminal) (depth behind : Nat) : Prop :=
  ∀ kind, terminal.admits kind = true →
    (depth = 0 → kind.opens = false) ∧ braces depth kind = behind

/-- Whether the words of a form introduce nothing, and how many braces are open before and behind them. -/
def Form.Lifts : Form → Nat → Nat → Prop
  | terminal kinds, depth, behind => kinds.Lifts depth behind
  | nonterminal name, depth, behind => name.Fits depth ∧ behind = depth
  | empty, depth, behind => behind = depth
  | seq front back, depth, behind =>
    ∃ between, front.Lifts depth between ∧ back.Lifts between behind
  | either left right, depth, behind => left.Lifts depth behind ∧ right.Lifts depth behind
  | many item, depth, behind => item.Lifts depth depth ∧ behind = depth

/-- Whether a terminal is neither a brace nor the word of a declaration. -/
def Terminal.flat : Terminal → Bool
  | oneOf kind others => (kind :: others).all fun kind => !kind.opens && braces 1 kind = 1
  | identifier | integer | float | character | string => true

theorem braces_of_flat {kind : TokenKind} (flat : braces 1 kind = 1) (depth : Nat) :
    braces depth kind = depth := by
  unfold braces at flat ⊢
  split <;> simp_all

theorem lifts_of_flat {terminal : Terminal} (flat : terminal.flat = true) {depth behind : Nat} :
    terminal.Lifts depth behind ↔ behind = depth := by
  have kinds (kind : TokenKind) (admitted : terminal.admits kind = true) :
      kind.opens = false ∧ braces depth kind = depth := by
    cases terminal with
    | oneOf first others =>
        have member : kind ∈ first :: others := of_decide_eq_true admitted
        rw [Terminal.flat, List.all_eq_true] at flat
        have own := flat kind member
        simp only [Bool.and_eq_true, Bool.not_eq_true', decide_eq_true_eq] at own
        exact ⟨own.1, braces_of_flat own.2 depth⟩
    | _ => cases kind <;> first | exact ⟨rfl, rfl⟩ | cases admitted
  constructor
  · intro lifts
    obtain ⟨kind, admitted⟩ := terminal.exists_admits
    rw [← (lifts kind admitted).2, (kinds kind admitted).2]
  · rintro rfl kind admitted
    exact ⟨fun _ => (kinds kind admitted).1, (kinds kind admitted).2⟩

theorem lifts_token {kind : TokenKind} {depth behind : Nat} :
    (Terminal.oneOf kind []).Lifts depth behind ↔
      (depth = 0 → kind.opens = false) ∧ braces depth kind = behind := by
  simp [Terminal.Lifts, Terminal.admits]

/-- A rule introduces nothing where it is said to. -/
theorem rule_lifts {nonterminal : Nonterminal} {depth : Nat} (fits : nonterminal.Fits depth) :
    (rule nonterminal).Lifts depth depth := by
  cases nonterminal with
  | program | declaration | functionDefinition => exact fits.elim
  | operators level =>
      cases level <;>
        simp (disch := decide) [rule, operand, operatorSigns, Form.sequence, Form.Lifts, Nonterminal.Fits,
          lifts_of_flat]
  | statement | localDeclaration | variableDefinition | constantDefinition | valueDefinition =>
      obtain ⟨outer, rfl⟩ := Nat.exists_eq_succ_of_ne_zero (Nat.pos_iff_ne_zero.1 fits)
      simp (disch := decide) [rule, objectDefinition, Form.sequence, Form.choice, Form.sign, Form.word,
        Form.token, Form.Lifts, Nonterminal.Fits, lifts_of_flat, lifts_token, TokenKind.opens, braces]
  | _ =>
      simp (disch := decide) [rule, Form.sequence, Form.choice, Form.list, Form.optional, Form.sign,
        Form.word, Form.token, Form.Lifts, Nonterminal.Fits, lifts_of_flat, lifts_token,
        TokenKind.opens, braces, typeWords, truthWords, unarySigns]

theorem Derives.headings_eq {form : Form} {word : List TokenKind} (derives : Derives form word)
    {depth behind : Nat} (lifts : form.Lifts depth behind) (rest : List TokenKind) :
    headings depth (word ++ rest) = headings behind rest := by
  induction derives generalizing depth behind rest with
  | terminal admitted =>
      obtain ⟨inner, rfl⟩ := lifts _ admitted
      exact headings_cons inner rest
  | nonterminal derives induction =>
      obtain ⟨fits, rfl⟩ := lifts
      exact induction (rule_lifts fits) rest
  | empty =>
      obtain rfl := lifts
      rfl
  | seq left right first second =>
      obtain ⟨between, before_lifts, after_lifts⟩ := lifts
      rw [List.append_assoc, first before_lifts, second after_lifts]
  | left derives induction => exact induction lifts.1 rest
  | right derives induction => exact induction lifts.2 rest
  | none =>
      obtain ⟨-, rfl⟩ := lifts
      rfl
  | more first others first_item more_items =>
      obtain ⟨item_lifts, rfl⟩ := lifts
      rw [List.append_assoc, first_item item_lifts, more_items ⟨item_lifts, rfl⟩]

/-- Behind its word a declaration introduces nothing. -/
theorem headings_of_word {keyword : Keyword} {others : Form} {word : List TokenKind}
    (derives : Derives (.seq (Form.word keyword) others) word) (lifts : others.Lifts 0 0)
    (rest : List TokenKind) :
    headings 0 (word ++ rest) = (heading? (word ++ rest)).toList ++ headings 0 rest := by
  rcases derives with _ | _ | _ | ⟨first, second⟩
  rcases first with ⟨admitted⟩
  obtain rfl := List.mem_singleton.1 (of_decide_eq_true admitted)
  rw [List.append_assoc, List.singleton_append, headings, if_pos rfl]
  exact congrArg _ (second.headings_eq lifts rest)

/-- A declaration at the top introduces what it begins with, and nothing else. -/
theorem headings_of_declaration {word : List TokenKind}
    (derives : Derives Nonterminal.declaration word) (rest : List TokenKind) :
    headings 0 (word ++ rest) = (heading? (word ++ rest)).toList ++ headings 0 rest := by
  have object {keyword : Keyword} {word : List TokenKind}
      (derives : Derives (objectDefinition keyword) word) :
      headings 0 (word ++ rest) = (heading? (word ++ rest)).toList ++ headings 0 rest := by
    apply headings_of_word derives
    simp (disch := decide) [Form.sequence, Form.Lifts, Nonterminal.Fits, lifts_of_flat, Form.sign,
      Form.token]
  have named {nonterminal : Nonterminal} {word : List TokenKind} (derives : Derives nonterminal word) :
      Derives (rule nonterminal) word := by
    cases derives
    assumption
  cases named derives with
  | left derives => exact object (named derives)
  | right derives =>
  cases derives with
  | left derives => exact object (named derives)
  | right derives =>
  cases derives with
  | left derives => exact object (named derives)
  | right derives =>
    apply headings_of_word (named derives)
    simp (disch := decide) [Form.sequence, Form.Lifts, Nonterminal.Fits, lifts_of_flat, Form.sign,
      Form.token, Form.optional]

end Grammar

/-! ## Headings of declarations -/

namespace DeclKind

/-- What a declaration introduces at the top. -/
def entity? : DeclKind → Option Entity
  | object .var _ _ => some .variable
  | object _ _ _ => some .constant
  | function _ _ _ => some .function
  | parameter _ | program _ => none

theorem Completes.entity?_eq {before after : DeclKind} (completes : Completes before after) :
    after.entity? = before.entity? := by
  cases completes with
  | refl => rfl
  | initializer kind => cases kind <;> rfl
  | body => rfl

end DeclKind

/-- What a declaration introduces at the top, and its name. -/
def Decl.heading? (decl : Decl) : Option (Entity × String) :=
  decl.kind.entity?.map fun entity => (entity, decl.name)

/-- What the declaration of an object introduces. -/
def ObjectKind.entity : ObjectKind → Entity
  | var => .variable
  | const | value => .constant

/-- Declarations keep what they introduce. -/
theorem Ast.Retains.heading?_eq {before after : Ast} (retains : before.Retains after) {id : DeclId}
    (declared : id.index < before.decls.size) :
    (after.decl id).heading? = (before.decl id).heading? := by
  have entity_eq := (retains.completes id declared).entity?_eq
  rw [Ast.kindOf, Ast.kindOf] at entity_eq
  rw [Decl.heading?, Decl.heading?, entity_eq, retains.name_eq id declared]

theorem TokenStream.Ended.uncons {tokens : List Token} (ended : Ended tokens) {first : Token}
    (found : (ofTokens tokens).lookahead 0 = .ok first) (more : first.kind ≠ .endOfInput) :
    ∃ rest, tokens = first :: rest ∧ Ended rest ∧
      ∀ distance, (ofTokens rest).lookahead distance = (ofTokens tokens).lookahead (distance + 1) := by
  cases ended with
  | last end_reached =>
      cases found
      exact absurd end_reached more
  | more _ ended =>
      rw [ofTokens_cons ended.ne_nil] at found ⊢
      cases found
      exact ⟨_, rfl, ended, fun _ => rfl⟩

namespace Parser

variable {before after : ParserState} {fuel : Nat} {id : DeclId} {entity : Entity} {name : String}

theorem Performs.retains {α : Type} {parser : Parser α} {gives : α → Prop} {result : α}
    (performs : Performs (fun _ => True) gives parser)
    (run : parser.run before = .ok (result, after)) :
    before.analysis.ast.Retains after.analysis.ast := by
  have outcome := performs before fun _ _ _ => trivial
  rw [run] at outcome
  have step (action : Analysis.Action) (middle : Analysis) (_ : ∀ token ∈ action.tokens, True)
      (retains : before.analysis.ast.Retains middle.ast) :
      Analysis.Ensures action.perform middle
        (fun _ state => before.analysis.ast.Retains state.ast) fun _ _ => True :=
    (action.perform_retains middle).mono (fun _ _ => retains.trans) fun _ _ => id
  exact outcome.2.2.keeps step (.refl _)

theorem Performs.objectEnd (declared : DeclId) (fuel : Nat) :
    Performs (fun _ => True) (fun _ => True) (objectEnd declared fuel) :=
  (expectSign _).bind fun _ _ => (expressionWithin fuel).bind fun _ _ => (expectSign _).bind fun _ _ =>
    check ⟨.defineObject declared _, .decl, rfl, nofun⟩

theorem Performs.functionEnd (declared : DeclId) (fuel : Nat) :
    Performs (fun _ => True) (fun _ => True) (functionEnd declared fuel) :=
  (block (statementWithin fuel) fuel).bind fun _ _ =>
    check ⟨.defineFunction declared _, .decl, rfl, nofun⟩

/-- Whether a declaration introduces an entity under a name. -/
def Introduces (entity : Entity) (name : String) (id : DeclId) (ast : Ast) : Prop :=
  id.index < ast.decls.size ∧ (ast.decl id).heading? = some (entity, name)

theorem Introduces.retains {earlier later : Ast} (introduces : Introduces entity name id earlier)
    (retains : earlier.Retains later) : Introduces entity name id later :=
  ⟨introduces.1.trans_le retains.decls_le, (retains.heading?_eq introduces.1).trans introduces.2⟩

theorem introduces_addDecl {ast : Ast} {decl : Decl} (heads : decl.heading? = some (entity, name)) :
    Introduces entity name ⟨ast.decls.size⟩ (ast.addDecl decl).2 := by
  have added : (ast.addDecl decl).2.decl ⟨ast.decls.size⟩ = decl := Ast.decl_addDecl_self ast decl
  exact ⟨(Array.size_push _).symm ▸ Nat.lt_succ_self _, added.symm ▸ heads⟩

/-- An object is introduced under the name behind its word. -/
theorem object_introduces {kind : ObjectKind}
    (run : (object kind fuel).run before = .ok (id, after)) :
    ∃ token name, before.tokens.lookahead 1 = .ok token ∧ token.kind = .identifier name ∧
      Introduces kind.entity name id after.analysis.ast := by
  rw [object_eq_head_end] at run
  obtain ⟨⟨token, type⟩, middle, runHead, run⟩ := run_bind_ok run
  obtain ⟨declared, state, runStep, run⟩ := run_bind_ok run
  have added := (Analysis.declareObject_ensures kind token type).result (check_ok runStep).1
  obtain ⟨name, scopes, spelled, rfl, -, same⟩ := added
  obtain rfl := objectEnd_returns run
  refine ⟨token, name, objectHead_name runHead, spelled, ?_⟩
  apply Introduces.retains ?_ ((Performs.objectEnd _ fuel).retains run)
  rw [same]
  apply introduces_addDecl
  cases kind <;> rfl

/-- A function is introduced under the name behind its word. -/
theorem function_introduces (run : (function fuel).run before = .ok (id, after)) :
    ∃ token name, before.tokens.lookahead 1 = .ok token ∧ token.kind = .identifier name ∧
      Introduces .function name id after.analysis.ast := by
  rw [function_eq_head_end] at run
  obtain ⟨⟨token, parameters, result⟩, middle, runHead, run⟩ := run_bind_ok run
  obtain ⟨declared, state, runStep, run⟩ := run_bind_ok run
  have added := (Analysis.declareFunction_ensures token parameters result).result (check_ok runStep).1
  obtain ⟨name, scopes, spelled, -, rfl, -, same⟩ := added
  obtain rfl := functionEnd_returns run
  refine ⟨token, name, functionHead_name runHead, spelled, ?_⟩
  apply Introduces.retains ?_ ((Performs.functionEnd _ fuel).retains run)
  rw [same]
  exact introduces_addDecl rfl

/-- A declaration begins with its word, and a sign stands behind its name. -/
theorem opening_tokens {α : Type} {keyword : Keyword} {sign : Punctuation} {rest : Token → Parser α}
    {result : α} (run : (do
      expectWord keyword
      let name ← expectIdentifier
      expectSign sign
      rest name).run before = .ok (result, after)) :
    (∃ token, before.tokens.lookahead 0 = .ok token ∧ token.kind = .keyword keyword) ∧
      ∃ token, before.tokens.lookahead 2 = .ok token ∧ token.kind = .punctuation sign := by
  obtain ⟨_, _, worded, run⟩ := run_bind_ok run
  obtain ⟨_, _, named, run⟩ := run_bind_ok run
  obtain ⟨_, _, signed, -⟩ := run_bind_ok run
  obtain ⟨token, found, spelled⟩ := expect_found signed
  rw [expectIdentifier_advances named, expect_ok worded, ParserState.advanced,
    TokenStream.lookahead_rest, ParserState.advanced, TokenStream.lookahead_rest] at found
  exact ⟨expect_found worded, token, found, spelled⟩

/-- What is declared at the top is an object or a function. -/
theorem declaration_ok (run : (declaration fuel).run before = .ok (id, after)) :
    (∃ kind, (object kind fuel).run before = .ok (id, after)) ∨
      (function fuel).run before = .ok (id, after) := by
  obtain ⟨kind, _, peeked, run⟩ := run_bind_ok run
  obtain rfl := peek_ok peeked
  split at run
  · exact .inl ⟨.var, run⟩
  · exact .inl ⟨.const, run⟩
  · obtain ⟨token, _, looked, run⟩ := run_bind_ok run
    obtain ⟨-, rfl⟩ := lookahead_ok looked
    split at run
    · exact .inl ⟨.value, run⟩
    · exact .inr run
    · exact absurd run (misplacedDefinition_fails _ _ _ _)
  · exact absurd run (unexpected_fails _ _ _ _)

section Lists

variable {tokens : List Token} (ended : TokenStream.Ended tokens)
  (tokens_eq : before.tokens = .ofTokens tokens)

include ended tokens_eq

/-- The first three tokens of a declaration. -/
theorem uncons_opening {keyword : Keyword} {sign : Punctuation}
    (opening : (∃ token, before.tokens.lookahead 0 = .ok token ∧ token.kind = .keyword keyword) ∧
      ∃ token, before.tokens.lookahead 2 = .ok token ∧ token.kind = .punctuation sign)
    {named : Token} (found : before.tokens.lookahead 1 = .ok named)
    (spelled : named.kind = .identifier name) :
    ∃ rest, tokens.map Token.kind =
      .keyword keyword :: .identifier name :: .punctuation sign :: rest := by
  obtain ⟨⟨first, found_first, spelled_first⟩, third, found_third, spelled_third⟩ := opening
  rw [tokens_eq] at found_first found found_third
  obtain ⟨rest, rfl, ended, rest_eq⟩ := ended.uncons found_first (by simp [spelled_first])
  rw [← rest_eq] at found found_third
  obtain ⟨rest, rfl, ended, rest_eq⟩ := ended.uncons found (by simp [spelled])
  rw [← rest_eq] at found_third
  obtain ⟨rest, rfl, -, -⟩ := ended.uncons found_third (by simp [spelled_third])
  exact ⟨rest.map Token.kind, by simp [spelled_first, spelled, spelled_third]⟩

/-- A declaration introduces what its first tokens say. -/
theorem declaration_introduces (run : (declaration fuel).run before = .ok (id, after)) :
    ∃ entity name, heading? (tokens.map Token.kind) = some (entity, name) ∧
      Introduces entity name id after.analysis.ast := by
  rcases declaration_ok run with ⟨kind, run⟩ | run
  · obtain ⟨named, name, found, spelled, introduces⟩ := object_introduces run
    obtain ⟨rest, opening⟩ := uncons_opening ended tokens_eq (opening_tokens run) found spelled
    refine ⟨kind.entity, name, ?_, introduces⟩
    rw [opening]
    cases kind <;> rfl
  · obtain ⟨named, name, found, spelled, introduces⟩ := function_introduces run
    obtain ⟨rest, opening⟩ := uncons_opening ended tokens_eq (opening_tokens run) found spelled
    refine ⟨.function, name, ?_, introduces⟩
    rw [opening]
    rfl

/-- What is read as a declaration is left out of the headings behind it. -/
theorem declaration_headings (run : (declaration fuel).run before = .ok (id, after)) :
    ∃ entity name rest, Introduces entity name id after.analysis.ast ∧
      after.tokens = .ofTokens rest ∧ TokenStream.Ended rest ∧
      headings 0 (tokens.map Token.kind) =
        (entity, name) :: headings 0 (rest.map Token.kind) := by
  obtain ⟨entity, name, heading, introduces⟩ := declaration_introduces ended tokens_eq run
  have fits := declaration_recognizes fuel before (tokens_eq ▸ ended.complete)
  rw [run] at fits
  obtain ⟨word, member, reads, -⟩ := fits
  rw [tokens_eq] at reads
  obtain ⟨word_eq, rest_eq, rest_ended⟩ :=
    ended.reads reads (Grammar.Derives.endOfInput_notMem member rfl)
  refine ⟨entity, name, _, introduces, rest_eq, rest_ended, ?_⟩
  have split_eq : tokens.map Token.kind =
      word ++ (tokens.drop word.length).map Token.kind := by
    conv_lhs => rw [← List.take_append_drop word.length tokens, List.map_append, ← word_eq]
  rw [split_eq] at heading ⊢
  rw [Grammar.headings_of_declaration member, heading]
  rfl

end Lists

/-- Declarations introduce one after another what their tokens say. -/
theorem declarations_headings {limit : Nat} {ids : List DeclId} {tokens : List Token}
    (ended : TokenStream.Ended tokens) (tokens_eq : before.tokens = .ofTokens tokens)
    (run : (declarations (declaration limit) fuel).run before = .ok (ids, after)) :
    (∀ id ∈ ids, id.index < after.analysis.ast.decls.size) ∧
      ids.map (fun id => (after.analysis.ast.decl id).heading?) =
        (headings 0 (tokens.map Token.kind)).map some := by
  induction fuel generalizing before tokens ids with
  | zero => cases run
  | succ fuel induction =>
      obtain ⟨token, found, run⟩ := exists_found_of_peek run
      split at run
      · next end_reached =>
        cases run
        rw [tokens_eq] at found
        cases ended with
        | last =>
            cases found
            exact ⟨by simp, by simp [headings, end_reached, heading?]⟩
        | more more ended =>
            rw [TokenStream.ofTokens_cons ended.ne_nil] at found
            cases found
            exact absurd end_reached more
      · obtain ⟨first, middle, runFirst, run⟩ := run_bind_ok run
        obtain ⟨others, last, runRest, run⟩ := run_bind_ok run
        cases run
        obtain ⟨entity, name, rest, introduces, rest_eq, rest_ended, headings_eq⟩ :=
          declaration_headings ended tokens_eq runFirst
        obtain ⟨others_lt, others_eq⟩ := induction rest_ended rest_eq runRest
        have introduces := introduces.retains
          ((Performs.declarations (Performs.declaration limit) fuel).retains runRest)
        rw [List.forall_mem_cons, List.map_cons, introduces.2, headings_eq, List.map_cons, others_eq]
        exact ⟨⟨introduces.1, others_lt⟩, rfl⟩

end Parser

/-- A text that can be read to its end is a list of tokens. -/
theorem TokenStream.exists_tokens_of_complete {fuel : Nat} {scanner : Scanner}
    (complete : (readWithin fuel scanner).Complete) :
    ∃ tokens, scanner.tokensWithin fuel = .ok tokens := by
  induction fuel generalizing scanner with
  | zero => exact complete.elim
  | succ fuel induction =>
      rw [readWithin] at complete
      rw [Scanner.tokensWithin]
      generalize scanner.scan = scanned at complete ⊢
      obtain ⟨outcome, rest⟩ := scanned
      cases outcome with
      | error error => exact complete.elim
      | ok token =>
          dsimp only at complete ⊢
          split at complete
          · next end_reached => exact ⟨[token], if_pos end_reached⟩
          · next more =>
            obtain ⟨tokens, tokens_eq⟩ := induction complete
            exact ⟨token :: tokens, by rw [if_neg more, tokens_eq, Except.map]⟩

theorem exists_tokens_of_parse {source : Source} {program : Program}
    (parsed : parse source = .ok program) : ∃ tokens, tokenize source = .ok tokens :=
  TokenStream.exists_tokens_of_complete (complete_of_parse parsed)

/-- The declarations of a text that is parsed introduce what its tokens say, in the same order. -/
theorem parse_headings {source : Source} {program : Program} (parsed : parse source = .ok program)
    {tokens : List Token} (tokenized : tokenize source = .ok tokens) :
    program.declarations.map (fun id => (program.ast.decl id).heading?) =
      (headings 0 (tokens.map Token.kind)).map some := by
  obtain ⟨stream_eq, ended⟩ := TokenStream.ofSource_eq_ofTokens tokenized
  obtain ⟨ids, after, run, -, rfl⟩ := Parser.declarations_of_parse parsed
  rw [stream_eq, Parser.runDeclarations] at run
  obtain ⟨ids_lt, ids_eq⟩ := Parser.declarations_headings ended rfl run
  have root := Ast.decl_addDecl_self after.analysis.ast ⟨source.name, .unknown, .program ids⟩
  rw [← ids_eq, Program.declarations, Ast.whole]
  dsimp only
  rw [root]
  exact List.map_congr_left fun id member => by rw [Ast.decl_addDecl_of_lt (ids_lt id member)]

end Minilang
