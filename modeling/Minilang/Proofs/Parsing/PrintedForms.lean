import Minilang.Proofs.Parsing.PrintedTokens

/-!
# Reading printed expressions, form by form

The parser for a tightness reads printed tokens as a step of analysis if what follows them ends the
expression (`Parser.Reads`). Forms that group to the left read their first operand and then go on
(`Parser.Opens`), so that longer chains are read from shorter ones. There is one lemma for each form of
expression, which takes its operands as read.
-/

namespace Minilang

open Analysis (OperatorLevel)

namespace Analysis.OperatorLevel

/-- Every operator belongs to one level. -/
theorem continues?_of_accepts {level : OperatorLevel} {kind : TokenKind}
    (accepted : level.accepts kind = true) : kind.continues? = some (.binary level) := by
  cases kind with
  | relational operator | arithmetic operator | bitwise operator | logical operator =>
      cases level <;> cases operator <;> first | rfl | cases accepted
  | _ => cases level <;> cases accepted

end Analysis.OperatorLevel

namespace Tightness

variable {tightness asked own : Tightness} {kind : TokenKind}

/-- The parser of the expressions of a tightness and of all tighter ones. -/
def parser (nested : ExpressionParsers) (rounds : Nat) : Tightness → Parser ExprId
  | assignment => Parser.assignmentExpression nested rounds
  | conditional => Parser.conditionalExpression nested rounds
  | binary level =>
    Parser.binaryExpression nested rounds (OperatorLevel.all.drop (OperatorLevel.all.idxOf level))
  | cast => Parser.castExpression nested rounds
  | unary => Parser.unaryExpression nested rounds
  | application => Parser.postfixExpression nested rounds
  | primary => Parser.primary nested

/-- Whether expressions of a tightness are written one behind another and group to the left. -/
def groups : Tightness → Bool
  | binary _ | cast | application => true
  | _ => false

/-- What is read behind the first of the expressions that group to the left. -/
def rest (nested : ExpressionParsers) (rounds left : Nat) : Tightness → ExprId → Parser ExprId
  | binary level =>
    Parser.binaryTail level ((binary level).tighter.parser nested rounds) left
  | cast => Parser.castTail left
  | application => Parser.postfixTail nested left
  | _ => pure

theorem parser_eq (grouped : tightness.groups = true) (nested : ExpressionParsers) (rounds : Nat) :
    tightness.parser nested rounds =
      tightness.tighter.parser nested rounds >>= tightness.rest nested rounds rounds := by
  cases tightness with
  | binary level => cases level <;> rfl
  | cast | application => rfl
  | _ => cases grouped

theorem rank_tighter (loose : tightness ≠ primary) : tightness.tighter.rank = tightness.rank + 1 := by
  cases tightness with
  | binary level => cases level <;> rfl
  | primary => exact absurd rfl loose
  | _ => rfl

theorem rank_le_tighter (tightness : Tightness) : tightness.rank ≤ tightness.tighter.rank := by
  by_cases loose : tightness = primary
  · rw [loose]
    exact le_rfl
  · rw [rank_tighter loose]
    exact Nat.le_succ _

theorem rank_le_primary (tightness : Tightness) : tightness.rank ≤ primary.rank := by
  cases tightness with
  | binary level => cases level <;> decide
  | _ => decide

theorem rank_binary_lt (level : OperatorLevel) : (binary level).rank < unary.rank := by
  cases level <;> decide

theorem iterate_rank (tightness : Tightness) : tighter^[tightness.rank] assignment = tightness := by
  cases tightness with
  | binary level => cases level <;> rfl
  | _ => rfl

theorem rank_injective : Function.Injective rank := fun first second same => by
  rw [← iterate_rank first, same, iterate_rank second]

theorem endsBefore_of_le (ends : asked.endsBefore kind = true) (le : asked.rank ≤ own.rank) :
    own.endsBefore kind = true := by
  rw [endsBefore, Option.all_eq_true] at ends ⊢
  intro form continued
  have looser := of_decide_eq_true (ends form continued)
  exact decide_eq_true (looser.trans_le le)

/-- What ends an expression is not what its form goes on with. -/
theorem continues?_ne (ends : asked.endsBefore kind = true) : kind.continues? ≠ some asked := by
  intro same
  rw [endsBefore, Option.all_eq_true] at ends
  exact absurd (of_decide_eq_true (ends asked same)) (Nat.lt_irrefl _)

/-- Nothing is read behind the last of the expressions that group to the left. -/
theorem acts_rest {nested : ExpressionParsers} {rounds left : Nat} {before : TokenStream}
    {token : Token} (found : before.lookahead 0 = .ok token)
    (ends : asked.endsBefore token.kind = true) (some_round : 0 < left) (result : ExprId) :
    Parser.Acts (asked.rest nested rounds left result) before (pure result) before := by
  obtain ⟨left, rfl⟩ : ∃ less, left = less + 1 := ⟨left - 1, (Nat.sub_add_cancel some_round).symm⟩
  have differs := continues?_ne ends
  cases asked with
  | binary level =>
      have rejected : level.accepts token.kind = false := Bool.eq_false_iff.2 fun accepted =>
        differs (OperatorLevel.continues?_of_accepts accepted)
      rw [rest, Parser.binaryTail]
      exact (Parser.Acts.consumeIf_none found rejected).bind_pure fun _ => rfl
  | cast =>
      have other : token.kind ≠ .keyword .asWord := fun same => differs (by rw [same]; rfl)
      rw [rest, Parser.castTail]
      exact (Parser.Acts.consume_false found other).bind_pure fun _ => rfl
  | application =>
      have not_call : token.kind ≠ .punctuation .leftParen := fun same => differs (by rw [same]; rfl)
      have not_index : token.kind ≠ .punctuation .leftBracket :=
        fun same => differs (by rw [same]; rfl)
      rw [rest, Parser.postfixTail]
      refine (Parser.Acts.consume_false found not_call).bind_pure ?_
      exact (Parser.Acts.consume_false found not_index).bind_pure fun _ => rfl
  | _ => exact fun _ => rfl

end Tightness

/-- What the parsers of nested expressions ask for. -/
def ExpressionForm.tightness : ExpressionForm → Tightness
  | expression => .assignment
  | conditional => .conditional
  | unary => .unary

namespace Parser

variable {pieces : List Piece} {step : Check ExprId} {asked own : Tightness}

/-- Whether printed tokens are read as a step of analysis where an expression of a tightness is asked
for, in front of a token that ends it. -/
def Reads (pieces : List Piece) (step : Check ExprId) (asked : Tightness) : Prop :=
  ∀ ⦃depth rounds before after next⦄, before.Shows pieces after → after.lookahead 0 = .ok next →
    asked.endsBefore next.kind = true → pieces.length ≤ depth → pieces.length < rounds →
    Acts (asked.parser (expressionsWithin depth) rounds) before (check step) after

/-- Whether printed tokens are read as a step of analysis in front of a token that ends all tighter
expressions, and what may follow in the same group is read behind them. -/
def Opens (pieces : List Piece) (step : Check ExprId) (asked : Tightness) : Prop :=
  ∀ ⦃depth rounds before after next⦄, before.Shows pieces after → after.lookahead 0 = .ok next →
    asked.tighter.endsBefore next.kind = true → pieces.length ≤ depth → pieces.length < rounds →
    ∃ left, rounds ≤ left + pieces.length ∧
      Acts (asked.parser (expressionsWithin depth) rounds) before
        (check step >>= asked.rest (expressionsWithin depth) rounds left) after

theorem Opens.of_reads (reads : Reads pieces step asked.tighter) (grouped : asked.groups = true) :
    Opens pieces step asked := by
  intro depth rounds before after next shows found ends deep enough
  refine ⟨rounds, Nat.le_add_right _ _, ?_⟩
  rw [Tightness.parser_eq grouped]
  exact (reads shows found ends deep enough).bind_check fun _ _ => rfl

theorem Reads.of_opens (opens : Opens pieces step asked) : Reads pieces step asked := by
  intro depth rounds before after next shows found ends deep enough
  have tighter_ends := Tightness.endsBefore_of_le ends (Tightness.rank_le_tighter asked)
  obtain ⟨left, rounds_le, acts⟩ := opens shows found tighter_ends deep enough
  have concludes : Acts (check step >>= asked.rest (expressionsWithin depth) rounds left) after
      (check step >>= pure) after :=
    (Acts.refl _ _).bind_check fun result => Tightness.acts_rest found ends (by omega) result
  rw [bind_pure] at concludes
  exact acts.trans concludes

/-! ### Looser forms -/

/-- What is read as an expression of a tightness is read where the next looser one is asked for. -/
theorem Reads.of_tighter (reads : Reads pieces step asked.tighter)
    (operand : asked = .unary → Piece.Begin (fun kind => isUnaryOperator kind = false) pieces) :
    Reads pieces step asked := by
  cases asked with
  | binary _ | cast | application => exact .of_opens (.of_reads reads rfl)
  | primary => exact reads
  | assignment =>
      intro depth rounds before after next shows found ends deep enough
      have inner := reads shows found (Tightness.endsBefore_of_le ends (by decide)) deep enough
      have other : next.kind ≠ .punctuation .assign := fun same =>
        Tightness.continues?_ne ends (by rw [same]; rfl)
      rw [← bind_pure (check step)]
      exact inner.bind_check fun _ => (Acts.consume_false found other).bind_pure fun _ => rfl
  | conditional =>
      intro depth rounds before after next shows found ends deep enough
      have inner := reads shows found (Tightness.endsBefore_of_le ends (by decide)) deep enough
      have other : next.kind ≠ .punctuation .question := fun same =>
        Tightness.continues?_ne ends (by rw [same]; rfl)
      rw [← bind_pure (check step)]
      exact inner.bind_check fun _ => (Acts.consume_false found other).bind_pure fun _ => rfl
  | unary =>
      intro depth rounds before after next shows found ends deep enough
      have inner := reads shows found (Tightness.endsBefore_of_le ends (by decide)) deep enough
      obtain ⟨token, token_found, rejected⟩ := shows.exists_head (operand rfl)
      exact (Acts.consumeIf_none token_found rejected).bind_pure inner

/-- What is read as an expression of a tightness is read wherever a looser one is asked for. -/
theorem Reads.of_rank_le {asked own : Tightness} (reads : Reads pieces step own) (le : asked.rank ≤ own.rank)
    (operand : asked.rank ≤ Tightness.unary.rank → Tightness.unary.rank < own.rank →
      Piece.Begin (fun kind => isUnaryOperator kind = false) pieces) :
    Reads pieces step asked := by
  obtain same | looser := le.eq_or_lt
  · rwa [Tightness.rank_injective same]
  · have loose : asked ≠ .primary := fun same =>
      absurd (Tightness.rank_le_primary own) (Nat.not_le.2 (same ▸ looser))
    have step_up := Tightness.rank_tighter loose
    refine .of_tighter (.of_rank_le reads (by omega) fun _ => operand (by omega)) fun same => ?_
    exact operand (same ▸ le_rfl) (same ▸ looser)
termination_by own.rank - asked.rank

/-- Expressions inside other ones are read with less fuel. -/
theorem Reads.nested (form : ExpressionForm) (reads : Reads pieces step form.tightness) {depth : Nat}
    {before after : TokenStream} {next : Token} (shows : before.Shows pieces after)
    (found : after.lookahead 0 = .ok next) (ends : form.tightness.endsBefore next.kind = true)
    (deep : pieces.length < depth) :
    Acts (expressionsWithin depth form) before (check step) after := by
  obtain ⟨depth, rfl⟩ : ∃ less, depth = less + 1 :=
    ⟨depth - 1, (Nat.sub_add_cancel (Nat.one_le_of_lt deep)).symm⟩
  have acts := @reads depth (depth + 1) before after next shows found ends (Nat.le_of_lt_succ deep) deep
  cases form <;> exact acts

/-! ### Primary expressions -/

theorem Reads.leaf {token : Token} (fits : token.kind.isLeaf = true) :
    Reads [.exactly token] (ExprTree.analyzeLeaf token) .primary := by
  rintro depth rounds before after next ⟨found, token_found, rfl, rfl⟩ - - - -
  refine (Acts.peek token_found).bind_pure ?_
  have consumes (step : Token → Check ExprId) :
      Acts (do check (step (← Parser.next))) before (check (step found)) before.rest :=
    (Acts.next token_found).bind_pure (.refl _ _)
  rw [ExprTree.analyzeLeaf]
  cases kind : found.kind with
  | integer | float | boolean | character | string | identifier => exact consumes _
  | _ => rw [kind] at fits; cases fits

theorem Reads.parenthesized (reads : Reads pieces step .assignment) :
    Reads (.sign .leftParen :: (pieces ++ [.sign .rightParen])) step .primary := by
  rintro depth rounds before after next ⟨opening, opening_found, opening_shows, shows⟩ - - deep -
  obtain ⟨middle, inner_shows, closing, closing_found, closing_shows, rfl⟩ :=
    TokenStream.shows_append.1 shows
  have ends : Tightness.assignment.endsBefore closing.kind = true := by
    rw [closing_shows.kind_eq]
    rfl
  have inner_deep : pieces.length < depth := by
    simp at deep
    omega
  have inner := reads.nested .expression inner_shows closing_found ends inner_deep
  refine (Acts.peek opening_found).bind_pure ?_
  rw [opening_shows.kind_eq]
  refine (Acts.next opening_found).bind_pure ?_
  rw [← bind_pure (check step)]
  exact inner.bind_check fun result =>
    (Acts.expectSign closing_found closing_shows).bind_pure (.refl _ _)

/-! ### Calls and index expressions -/

theorem acts_arguments {closing : Punctuation} {trees : List ExprTree} {depth fuel : Nat}
    {before after : TokenStream} {token : Token} (separates : closing ≠ .comma)
    (closes : Tightness.assignment.endsBefore (.punctuation closing) = true)
    (each : ∀ tree ∈ trees, Reads tree.body tree.analyze .assignment ∧
      Piece.Begin (· ≠ .punctuation closing) tree.body)
    (shows : before.Shows (Piece.separated (ExprTree.bodies trees)) after)
    (found : after.lookahead 0 = .ok token) (fits : token.kind = .punctuation closing)
    (deep : (Piece.separated (ExprTree.bodies trees)).length < depth)
    (enough : (Piece.separated (ExprTree.bodies trees)).length < fuel) :
    Acts (arguments (expressionsWithin depth) closing fuel) before
      (check (ExprTree.analyzeAll trees)) after.rest := by
  rw [ExprTree.bodies_eq] at shows deep enough
  rw [ExprTree.analyzeAll_eq, Parser.arguments]
  cases trees with
  | nil =>
      obtain rfl := shows
      exact (Acts.consume found fits).bind_pure fun _ => rfl
  | cons first others =>
      obtain ⟨-, begins⟩ := each first List.mem_cons_self
      have first_begins : Piece.Begin (· ≠ .punctuation closing)
          (Piece.separated ((first :: others).map ExprTree.body)) := begins.separated _
      obtain ⟨head, head_found, differs⟩ := shows.exists_head first_begins
      have counted := Piece.length_le_length_separated ((first :: others).map ExprTree.body)
      rw [List.length_map] at counted
      have reads : Acts (sepByComma (expressionsWithin depth .expression) fuel) before
          (check ((first :: others).mapM ExprTree.analyze)) after := by
        have differs : TokenKind.punctuation closing ≠ .punctuation .comma := by simpa using separates
        refine Acts.sepByComma differs ExprTree.body ExprTree.analyze (List.cons_ne_nil _ _) ?_
          (by omega) shows found fits
        intro tree member before after next tree_shows next_found ends
        have part := Piece.length_le_separated (List.mem_map_of_mem (f := ExprTree.body) member)
        refine (each tree member).1.nested .expression tree_shows next_found ?_ (by omega)
        rcases ends with comma | closed
        · rw [comma]
          rfl
        · rwa [closed]
      refine (Acts.consume_false head_found differs).bind_pure ?_
      rw [← bind_pure (check _)]
      exact reads.bind_check fun results => (Acts.expectSign found fits).bind_pure (.refl _ _)

theorem Opens.applied {opening closing : Punctuation} {callee : Check ExprId}
    {combine : ExprId → List ExprId → Check ExprId} {trees : List ExprTree}
    (starts : ∀ {nested left before token} callee, before.lookahead 0 = .ok token →
      token.kind = .punctuation opening → Acts (postfixTail nested (left + 1) callee) before
        (do
          let arguments ← arguments nested closing left
          postfixTail nested left (← check (combine callee arguments))) before.rest)
    (binds : Tightness.primary.endsBefore (.punctuation opening) = true)
    (separates : closing ≠ .comma)
    (closes : Tightness.assignment.endsBefore (.punctuation closing) = true)
    (opens : Opens pieces callee .application)
    (each : ∀ tree ∈ trees, Reads tree.body tree.analyze .assignment ∧
      Piece.Begin (· ≠ .punctuation closing) tree.body) :
    Opens (pieces ++ .sign opening :: (Piece.separated (ExprTree.bodies trees) ++ [.sign closing]))
      (do combine (← callee) (← ExprTree.analyzeAll trees)) .application := by
  intro depth rounds before after next shows _ _ deep enough
  obtain ⟨middle, callee_shows, opening_token, opening_found, opening_shows, shows⟩ :=
    TokenStream.shows_append.1 shows
  obtain ⟨last, trees_show, closing_token, closing_found, closing_shows, rfl⟩ :=
    TokenStream.shows_append.1 shows
  simp only [List.length_append, List.length_cons, List.length_nil] at deep enough
  obtain ⟨left, rounds_le, acts⟩ := opens callee_shows opening_found
    (by rw [opening_shows.kind_eq]; exact binds) (by omega : _ ≤ depth) (by omega : _ < rounds)
  obtain ⟨left, rfl⟩ : ∃ less, left = less + 1 := ⟨left - 1, by omega⟩
  refine ⟨left, by simp; omega, acts.trans ?_⟩
  rw [check_bind, bind_assoc]
  refine (Acts.refl _ _).bind_check fun callee => (starts callee opening_found opening_shows).trans ?_
  rw [check_bind, bind_assoc]
  have reads := acts_arguments separates closes each trees_show closing_found closing_shows
    (by omega : _ < depth) (by omega : _ < left)
  exact reads.bind_check fun results => .refl _ _

/-- The tail of calls and index expressions goes on with a call at an opening parenthesis. -/
theorem acts_postfixTail_call {nested : ExpressionParsers} {left : Nat} {before : TokenStream}
    {token : Token} (callee : ExprId) (found : before.lookahead 0 = .ok token)
    (fits : token.kind = .punctuation .leftParen) :
    Acts (postfixTail nested (left + 1) callee) before
      (do
        let arguments ← arguments nested .rightParen left
        postfixTail nested left (← check (Analysis.call callee arguments))) before.rest :=
  (Acts.consume found fits).bind_pure (.refl _ _)

/-- The tail of calls and index expressions goes on with an index expression at an opening bracket. -/
theorem acts_postfixTail_index {nested : ExpressionParsers} {left : Nat} {before : TokenStream}
    {token : Token} (base : ExprId) (found : before.lookahead 0 = .ok token)
    (fits : token.kind = .punctuation .leftBracket) :
    Acts (postfixTail nested (left + 1) base) before
      (do
        let arguments ← arguments nested .rightBracket left
        postfixTail nested left (← check (Analysis.index base arguments))) before.rest := by
  refine (Acts.consume_false found (by rw [fits]; decide)).bind_pure ?_
  exact (Acts.consume found fits).bind_pure (.refl _ _)

/-! ### Operators and casts -/

theorem Opens.cast {operand : Check ExprId} {type : Ty} (plain : type.isPlain = true)
    (opens : Opens pieces operand .cast) :
    Opens (pieces ++ .ofKind (.keyword .asWord) :: type.pieces)
      (do Analysis.cast (← operand) type) .cast := by
  intro depth rounds before after next shows _ _ deep enough
  obtain ⟨middle, operand_shows, word, word_found, word_shows, type_shows⟩ :=
    TokenStream.shows_append.1 shows
  simp only [List.length_append, List.length_cons] at deep enough
  obtain ⟨left, rounds_le, acts⟩ := opens operand_shows word_found
    (by rw [word_shows.kind_eq]; rfl) (by omega : _ ≤ depth) (by omega : _ < rounds)
  obtain ⟨left, rfl⟩ : ∃ less, left = less + 1 := ⟨left - 1, by omega⟩
  refine ⟨left, by simp; omega, acts.trans ?_⟩
  rw [check_bind, bind_assoc]
  refine (Acts.refl _ _).bind_check fun operand => ?_
  refine (Acts.consume word_found word_shows.kind_eq).bind_pure ?_
  exact (Ty.acts_typeWithin type plain type_shows (by omega)).bind_pure (.refl _ _)

theorem Opens.binary {level : OperatorLevel} {operator : Token} {more : List Piece}
    {leftStep rightStep : Check ExprId} (fits : level.accepts operator.kind = true)
    (opens : Opens pieces leftStep (.binary level))
    (reads : Reads more rightStep (Tightness.binary level).tighter) :
    Opens (pieces ++ .exactly operator :: more)
      (do level.combine operator (← leftStep) (← rightStep)) (.binary level) := by
  intro depth rounds before after next shows found ends deep enough
  obtain ⟨middle, left_shows, token, token_found, rfl, right_shows⟩ :=
    TokenStream.shows_append.1 shows
  simp only [List.length_append, List.length_cons] at deep enough
  have binds : (Tightness.binary level).tighter.endsBefore token.kind = true := by
    rw [Tightness.endsBefore, OperatorLevel.continues?_of_accepts fits, Option.all_some,
      decide_eq_true_iff, Tightness.rank_tighter (by simp)]
    exact Nat.lt_succ_self _
  obtain ⟨left, rounds_le, acts⟩ := opens left_shows token_found binds
    (by omega : _ ≤ depth) (by omega : _ < rounds)
  obtain ⟨left, rfl⟩ : ∃ less, left = less + 1 := ⟨left - 1, by omega⟩
  refine ⟨left, by simp; omega, acts.trans ?_⟩
  rw [check_bind, bind_assoc]
  refine (Acts.refl _ _).bind_check fun operand => ?_
  refine (Acts.consumeIf token_found fits).bind_pure ?_
  rw [check_bind, bind_assoc]
  exact (reads right_shows found ends (by omega) (by omega)).bind_check fun _ => .refl _ _

/-- A minus sign belongs to the integer literal behind it unless that is called or indexed. -/
theorem acts_negatesLiteral {operator literal next : Token} {before : TokenStream}
    (minus : operator.kind = .arithmetic .sub) (found : before.lookahead 0 = .ok literal)
    (integer : literal.kind.isInteger = true) (next_found : before.rest.lookahead 0 = .ok next) :
    Acts (negatesLiteral operator) before
      (pure !(next.kind == .punctuation .leftParen || next.kind == .punctuation .leftBracket))
      before := by
  rw [TokenStream.lookahead_rest] at next_found
  rw [negatesLiteral, if_neg (not_not.2 minus)]
  refine (Acts.peek found).bind_pure ?_
  cases kind : literal.kind with
  | integer value radix =>
      refine (Acts.lookahead next_found).bind_pure ?_
      cases next.kind with
      | punctuation sign => cases sign <;> exact .refl _ _
      | _ => exact .refl _ _
  | _ => rw [kind] at integer; cases integer

/-- Whether printed tokens do not begin with an integer literal that is neither called nor indexed. -/
def KeepsSign (pieces : List Piece) : Prop :=
  Piece.Begin (fun kind => kind.isInteger = false) pieces ∨
    ∃ first others, pieces = first :: others ∧
      Piece.Begin (fun kind => kind = .punctuation .leftParen ∨ kind = .punctuation .leftBracket)
        others

/-- In front of such tokens a minus sign is an operator. -/
theorem acts_negatesLiteral_of_keepsSign {operator : Token} {before after : TokenStream}
    (minus : operator.kind = .arithmetic .sub) (keeps : KeepsSign pieces)
    (shows : before.Shows pieces after) :
    Acts (negatesLiteral operator) before (pure false) before := by
  have not_integer {head : Token} (found : before.lookahead 0 = .ok head)
      (other : head.kind.isInteger = false) :
      Acts (negatesLiteral operator) before (pure false) before := by
    rw [negatesLiteral, if_neg (not_not.2 minus)]
    refine (Acts.peek found).bind_pure ?_
    cases kind : head.kind with
    | integer => rw [kind] at other; cases other
    | _ => exact .refl _ _
  obtain begins | ⟨first, others, rfl, begins⟩ := keeps
  · obtain ⟨head, found, other⟩ := shows.exists_head begins
    exact not_integer found other
  · obtain ⟨head, found, -, others_show⟩ := shows
    obtain ⟨opening, opening_found, opens⟩ := others_show.exists_head begins
    cases integer : head.kind.isInteger with
    | false => exact not_integer found integer
    | true =>
        have acts := acts_negatesLiteral minus found integer opening_found
        rcases opens with paren | bracket
        · rwa [paren] at acts
        · rwa [bracket] at acts

theorem Reads.unary {operator : Token} {operand : Check ExprId}
    (fits : isUnaryOperator operator.kind = true)
    (keeps : operator.kind = .arithmetic .sub → KeepsSign pieces)
    (reads : Reads pieces operand .unary) :
    Reads (.exactly operator :: pieces) (do Analysis.unary operator (← operand)) .unary := by
  rintro depth rounds before after next ⟨token, token_found, rfl, shows⟩ found ends deep -
  have kept : Acts (negatesLiteral token) before.rest (pure false) before.rest := by
    by_cases minus : token.kind = .arithmetic .sub
    · exact acts_negatesLiteral_of_keepsSign minus (keeps minus) shows
    · rw [negatesLiteral, if_pos minus]
      exact .refl _ _
  refine (Acts.consumeIf token_found fits).bind_pure ?_
  refine kept.bind_pure ?_
  exact (reads.nested .unary shows found ends deep).bind_steps fun _ => .refl _ _

theorem Reads.negatedInteger {sign literal : Token} (minus : sign.kind = .arithmetic .sub)
    (integer : literal.kind.isInteger = true) :
    Reads [.exactly sign, .exactly literal] (Analysis.negatedIntegerLiteral sign literal) .unary := by
  rintro depth rounds before after next ⟨sign, sign_found, rfl, literal, literal_found, rfl, rfl⟩ found
    ends - -
  have not_paren : next.kind ≠ .punctuation .leftParen := by
    intro same
    rw [same] at ends
    cases ends
  have not_bracket : next.kind ≠ .punctuation .leftBracket := by
    intro same
    rw [same] at ends
    cases ends
  have negates := acts_negatesLiteral minus literal_found integer found
  rw [beq_eq_false_iff_ne.2 not_paren, beq_eq_false_iff_ne.2 not_bracket] at negates
  refine (Acts.consumeIf sign_found (by rw [minus]; rfl)).bind_pure ?_
  refine negates.bind_pure ?_
  exact (Acts.next literal_found).bind_pure (.refl _ _)

/-! ### Conditionals and assignments -/

theorem Reads.conditional {guard whenTrue whenFalse : Check ExprId} {first second third : List Piece}
    (guard_reads : Reads first guard Tightness.conditional.tighter)
    (whenTrue_reads : Reads second whenTrue .assignment)
    (whenFalse_reads : Reads third whenFalse .conditional) :
    Reads (first ++ .sign .question :: (second ++ .sign .colon :: third))
      (do Analysis.conditional (← guard) (← whenTrue) (← whenFalse)) .conditional := by
  intro depth rounds before after next shows found ends deep enough
  obtain ⟨middle, first_shows, question, question_found, question_shows, shows⟩ :=
    TokenStream.shows_append.1 shows
  obtain ⟨last, second_shows, colon, colon_found, colon_shows, third_shows⟩ :=
    TokenStream.shows_append.1 shows
  simp only [List.length_append, List.length_cons] at deep enough
  refine (guard_reads first_shows question_found (by rw [question_shows.kind_eq]; rfl)
    (by omega) (by omega)).bind_steps fun guard => ?_
  refine (Acts.consume question_found question_shows.kind_eq).bind_pure ?_
  refine (whenTrue_reads.nested .expression second_shows colon_found
    (by rw [colon_shows.kind_eq]; rfl) (by omega)).bind_steps fun whenTrue => ?_
  refine (Acts.expectSign colon_found colon_shows.kind_eq).bind_pure ?_
  exact (whenFalse_reads.nested .conditional third_shows found ends (by omega)).bind_steps fun _ =>
    .refl _ _

theorem Reads.assignment {target value : Check ExprId} {first second : List Piece}
    (target_reads : Reads first target .conditional) (value_reads : Reads second value .assignment) :
    Reads (first ++ .sign .assign :: second) (do Analysis.assignment (← target) (← value))
      .assignment := by
  intro depth rounds before after next shows found ends deep enough
  obtain ⟨middle, first_shows, sign, sign_found, sign_shows, second_shows⟩ :=
    TokenStream.shows_append.1 shows
  simp only [List.length_append, List.length_cons] at deep enough
  refine (target_reads first_shows sign_found (by rw [sign_shows.kind_eq]; rfl)
    (by omega) (by omega)).bind_steps fun target => ?_
  refine (Acts.consume sign_found sign_shows.kind_eq).bind_pure ?_
  exact (value_reads.nested .expression second_shows found ends (by omega)).bind_steps fun _ =>
    .refl _ _

end Parser

end Minilang
